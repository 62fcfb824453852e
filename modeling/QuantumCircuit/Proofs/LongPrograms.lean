import Mathlib.Logic.Function.Iterate
import QuantumCircuit.Proofs.Scrolling

/-!
# Long programs

The program panel counts with sixteen bits: how far it is scrolled, and how many lines the program
has.  A program can have more lines than that, and then their number is cut
(`Session.toNat_lineCount`): of 65536 lines nothing is left, and to scroll down leads to the top.
But whatever is left of the number, scrolling down ends before the largest one of sixteen bits
(`Session.scroll_scrollDown_lt`), so that there always is a next one to count to.

* `scroll_never_overflows` : the sum in scrolling down never overflows, and in every run the
  program is scrolled as it would be by counting without bound (`Session.countAll`).
* `scroll_never_overflows_crammed` : the bound is attained.  A wire is filled with gates
  (`Session.WrittenTo`), the program is scrolled down by 65534 lines, and then it gets the line with
  which its number of lines is cut to nothing.
-/

namespace QuantumCircuit

namespace Session

variable {n d : Nat} {s s' : Session n d} {e : Event}

/-! ### Counting with sixteen bits -/

/-- However long the program is, scrolling down ends before the largest number of sixteen bits. -/
theorem scroll_scrollDown_lt (s : Session n d) : s.scrollDown.scroll.toNat < 65535 := by
  rw [toNat_scrollDown]
  omega

theorem Turn.scroll_lt (hturn : s.Turn e s') (h : s.scroll.toNat < 65535) :
    s'.scroll.toNat < 65535 := by
  rcases hturn.scroll_cases with hle | heq
  · exact Nat.lt_of_le_of_lt hle h
  · rw [heq]
    exact s.scroll_scrollDown_lt

theorem Reached.scroll_lt_max {settings : Settings} {s : Session settings.wires settings.depth}
    (h : s.Reached settings) : s.scroll.toNat < 65535 := by
  induction h with
  | start hstart =>
    show 0 < _
    decide
  | after _ e reply ih => exact (turn_after _ e reply).scroll_lt ih

theorem toNat_scroll_add_one (h : s.scroll.toNat < 65535) :
    (s.scroll + 1).toNat = s.scroll.toNat + 1 := by
  rw [UInt16.toNat_add, UInt16.toNat_one]
  omega

/-! ### Counting without bound -/

/-- What an event makes of a number of lines above the panel, counted without bound: an arrow
scrolls the program panel by one line, down to the last line of as many as sixteen bits can tell,
and to start over in the circuit panel scrolls back to the top. -/
def countAfter (s : Session n d) (lines : Nat) : Event → Nat
  | .press key =>
    match s.focus with
    | .circuit => if key.code = .char 'r' ∧ key.control ∧ ¬ s.showsHelp then 0 else lines
    | .program =>
      match key.code with
      | .up => lines - 1
      | .down => min (lines + 1) (s.programLength % 65536 - 1)
      | _ => lines
    | .anglePrompt => lines
  | _ => lines

/-- The session after a run: events, each with the reply to what the session then asks for. -/
def afterAll (s : Session n d) : List (Event × Option String) → Session n d
  | [] => s
  | (e, reply) :: rest => (s.after e reply).afterAll rest

/-- What a run makes of a number of lines above the panel, counted without bound. -/
def countAll (s : Session n d) (lines : Nat) : List (Event × Option String) → Nat
  | [] => lines
  | (e, reply) :: rest => (s.after e reply).countAll (s.countAfter lines e) rest

theorem scroll_served (reply : Option String) (result : Session n d × Request) :
    (served reply result).scroll = result.1.scroll := by
  obtain ⟨s, request⟩ := result
  cases request <;> rfl

theorem scroll_rotateSelected (s : Session n d) (steps : Binary64) :
    (s.rotateSelected steps).scroll = s.scroll := by
  unfold rotateSelected
  split <;> rfl

theorem scroll_openPrompt (s : Session n d) : s.openPrompt.scroll = s.scroll := by
  unfold openPrompt
  split
  · rfl
  · split <;> rfl

theorem scroll_handleGateKey (s : Session n d) (key : Key) :
    (s.handleGateKey key).1.scroll = s.scroll := by
  have hturn := s.gateTurn_handleGateKey key
  generalize s.handleGateKey key = result at hturn ⊢
  cases hturn with
  | turned steps => exact s.scroll_rotateSelected steps
  | prompted => exact s.scroll_openPrompt
  | _ => rfl

theorem scroll_handlePromptKey (s : Session n d) (key : Key) :
    (s.handlePromptKey key).scroll = s.scroll := by
  unfold handlePromptKey
  cases key.code with
  | char ch =>
    dsimp only
    unfold typeChar
    split <;> rfl
  | _ => rfl

theorem scroll_handleCircuitKey (s : Session n d) (key : Key) :
    (s.handleCircuitKey key).1.scroll.toNat =
      if key.code = .char 'r' ∧ key.control ∧ ¬ s.showsHelp then 0 else s.scroll.toNat := by
  unfold handleCircuitKey
  split
  · rename_i hhelp
    rw [if_neg fun h => h.2.2 hhelp]
    split <;> rfl
  · rename_i hhelp
    split
    · rename_i hcontrol
      split
      · rename_i hcode
        rw [if_neg fun h => by simp [hcode] at h]
      · rename_i hcode
        rw [if_pos ⟨hcode, hcontrol, hhelp⟩]
        rfl
      · rename_i hcode
        rw [if_neg fun h => hcode h.1]
    · rename_i hcontrol
      rw [if_neg fun h => hcontrol h.2.1, scroll_handleGateKey]

theorem scroll_handleProgramKey (h : s.scroll.toNat < 65535) (hs : s.focus = .program)
    (key : Key) :
    (s.handleProgramKey key).1.scroll.toNat = s.countAfter s.scroll.toNat (.press key) := by
  unfold handleProgramKey countAfter
  rw [hs]
  dsimp only
  cases key.code with
  | up => exact s.toNat_scrollUp
  | down =>
    dsimp only
    rw [toNat_scrollDown, toNat_scroll_add_one h]
  | char _ =>
    -- One of them quits, the others do nothing.
    dsimp only
    split <;> first | contradiction | rfl
  | _ => rfl

/-- A key that quits does not scroll. -/
theorem countAfter_of_char {key : Key} {lines : Nat} (hkey : key.code = .char 'c') :
    s.countAfter lines (.press key) = lines := by
  unfold countAfter
  dsimp only
  rw [hkey, if_neg fun h => by simp at h]
  split <;> rfl

/-- With sixteen bits an event scrolls the program as it would by counting without bound. -/
theorem toNat_scroll_after (h : s.scroll.toNat < 65535) (e : Event) (reply : Option String) :
    (s.after e reply).scroll.toNat = s.countAfter s.scroll.toNat e := by
  rw [after, scroll_served]
  cases e with
  | press key =>
    dsimp only [handle]
    unfold handleKey
    split
    · rename_i hquit
      simp only [Bool.and_eq_true, decide_eq_true_eq] at hquit
      exact (countAfter_of_char hquit.1).symm
    · split
      · rename_i hs
        rw [scroll_handleCircuitKey, countAfter, hs]
      · rename_i hs
        exact scroll_handleProgramKey h hs key
      · rename_i hs
        rw [scroll_handlePromptKey, countAfter, hs]
  | _ => rfl

theorem toNat_scroll_afterAll (h : s.scroll.toNat < 65535) (run : List (Event × Option String)) :
    (s.afterAll run).scroll.toNat = s.countAll s.scroll.toNat run := by
  -- Both counts agree in the next session too, because every turn keeps the bound.
  induction run generalizing s with
  | nil => rfl
  | cons turn rest ih =>
    obtain ⟨e, reply⟩ := turn
    rw [afterAll, countAll, ih ((turn_after s e reply).scroll_lt h), toNat_scroll_after h]

/-! ### Keys one after another -/

/-- The session after a key without modifiers. -/
def press (s : Session n d) (code : KeyCode) : Session n d := s.after (.press { code }) none

theorem press_of_atCircuit (hs : s.AtCircuit) (code : KeyCode) :
    s.press code = served none (s.handleGateKey { code }) := by
  unfold press after handle
  dsimp only
  unfold handleKey
  rw [Bool.and_false, if_neg Bool.false_ne_true, hs.focus_eq]
  dsimp only
  unfold handleCircuitKey
  rw [hs.showsHelp_eq, if_neg Bool.false_ne_true, if_neg Bool.false_ne_true]

theorem press_of_program (hs : s.focus = .program) (code : KeyCode) :
    s.press code = served none (s.handleProgramKey { code }) := by
  unfold press after handle
  dsimp only
  unfold handleKey
  rw [Bool.and_false, if_neg Bool.false_ne_true, hs]

/-- Holding the down key counts the lines up to the last one that sixteen bits can tell. -/
theorem iterate_press_down (hs : s.focus = .program)
    (h : s.scroll.toNat ≤ s.programLength % 65536 - 1) (k : Nat) :
    ∃ scroll, (press · .down)^[k] s = { s with scroll } ∧
      scroll.toNat = min (s.scroll.toNat + k) (s.programLength % 65536 - 1) := by
  induction k with
  | zero => exact ⟨s.scroll, rfl, (Nat.min_eq_left h).symm⟩
  | succ k ih =>
    obtain ⟨scroll, heq, hscroll⟩ := ih
    have hnext : (scroll + 1).toNat = scroll.toNat + 1 :=
      toNat_scroll_add_one (s := { s with scroll }) (by dsimp only; omega)
    refine ⟨(scrollDown { s with scroll }).scroll, ?_, ?_⟩
    · rw [Function.iterate_succ_apply', heq]
      exact press_of_program (s := { s with scroll }) hs .down
    · rw [toNat_scrollDown]
      show min (scroll + 1).toNat (s.programLength % 65536 - 1) = _
      omega

end Session

/-! ### Writing a long program -/

namespace Circuit

variable {n d : Nat}

/-- The program of a blank circuit is the preamble. -/
theorem programLines_blank : (blank : Circuit n d).programLines = preamble n := by
  have hnone : ∀ cell ∈ (blank : Circuit n d).cells, (blank : Circuit n d).lineAt cell = none :=
    fun cell _ => lineAt_of_blank (by rw [node, column_blank, Column.node_blank])
  rw [programLines_eq, List.filterMap_eq_nil_iff.2 hnone, List.append_nil]

/-- A gate in a cell that held none adds a line to the program. -/
theorem ChangedAt.length_of_placed {c c' : Circuit n d} {cell : Cell}
    (hchange : c.ChangedAt cell c') (h : c.EditReachable)
    (hnull : (c.node cell).kind.isNull = true) (hgate : (c'.node cell).kind.isNull = false) :
    c'.programLines.length = c.programLines.length + 1 := by
  obtain ⟨before, rest, hold, hnew⟩ :=
    programLines_split fun _ hne => hchange.lineAt_eq h hne
  obtain ⟨i, hi⟩ := Option.isSome_iff_exists.1 (Node.isSome_instruction?_iff.2 hgate)
  have hline : c'.lineAt cell = some i.toText := by rw [lineAt, hi, Option.map_some]
  rw [hold, hnew, lineAt_of_isNull hnull, hline]
  simp only [Option.toList_none, Option.toList_some, List.length_append, List.length_cons,
    List.length_nil]
  omega

end Circuit

/-- An X gate can be put down in a blank column of one wire. -/
theorem Column.toggleGate_blank : ∃ column : Column 1,
    Column.blank.toggleGate 0 (.plain .x) = .ok column ∧ (column.node 0).kind.isNull = false :=
  ⟨Column.blank.overwrite 0 (.ofSymbol .x), by decide +kernel, by decide +kernel⟩

namespace Circuit

variable {d : Nat} {c : Circuit 1 d}

/-- To put down an X gate in a blank column adds a line to the program, and leaves the other columns
as they are. -/
theorem after_toggleGate (h : c.EditReachable) {col : Nat} (hcol : col < d)
    (hblank : c.column col = .blank) :
    (c.after (.command (.toggleGate ⟨0, col⟩ (.plain .x)))).programLines.length =
        c.programLines.length + 1 ∧
      ∀ k, k ≠ col →
        (c.after (.command (.toggleGate ⟨0, col⟩ (.plain .x)))).column k = c.column k := by
  obtain ⟨column, htoggle, hgate⟩ := Column.toggleGate_blank
  rw [← hblank] at htoggle
  have hresult : Editor.attempt c (.toggleGate ⟨0, col⟩ (.plain .x)) =
      .ok (c.withColumn col column, none) := by
    have hcell : (⟨0, col⟩ : Cell).col < d := hcol
    show c.edit ⟨0, col⟩ (fun column => Editor.silently (column.toggleGate 0 (.plain .x))) = _
    exact edit_eq_ok_iff.2 ⟨hcell, column, congrArg Editor.silently htoggle, rfl⟩
  -- The cell shows nothing, so the toggle deletes no gate there.
  have hkeep : ¬ (Command.toggleGate ⟨0, col⟩ (.plain .x)).Deletes c := by
    show ¬ (c.column col).reading 0 ≠ .empty
    rw [hblank]
    decide +kernel
  have hchange := changedAt_attempt hresult hkeep
  have hnull : (c.node ⟨0, col⟩).kind.isNull = true := by
    rw [node, hblank, Column.node_blank, Node.isNull_kind]
    rfl
  have hplaced : ((c.withColumn col column).node ⟨0, col⟩).kind.isNull = false := by
    rw [node, column_withColumn hcol, if_pos rfl]
    exact hgate
  rw [after, hresult, settle]
  exact ⟨hchange.length_of_placed h hnull hplaced, hchange.column_eq⟩

end Circuit

namespace Session

variable {d k : Nat} {s : Session 1 d}

/-- The first `k` columns of the wire have been filled with a gate each, and the cursor is behind
them. -/
structure WrittenTo (s : Session 1 d) (k : Nat) : Prop where
  editReachable : s.editor.circuit.EditReachable
  atCircuit : s.AtCircuit
  cursor_eq : s.editor.cursor = ⟨0, k⟩
  column_eq : ∀ col, k ≤ col → s.editor.circuit.column col = .blank
  length_eq : s.programLength = 5 + k

theorem writtenTo_start (rotationStep : Binary64) (output : String) :
    (start (.start rotationStep) output : Session 1 d).WrittenTo 0 where
  editReachable := .blank
  atCircuit := ⟨rfl, rfl⟩
  cursor_eq := rfl
  column_eq col _ := Circuit.column_blank col
  length_eq := congrArg List.length Circuit.programLines_blank

/-- The key of an X gate puts it down in the next column. -/
theorem WrittenTo.press_x (h : s.WrittenTo k) (hk : k < d) :
    ∃ editor : Editor 1 d, s.press (.char 'x') = { s with editor } ∧
      editor.circuit.EditReachable ∧ editor.cursor = ⟨0, k⟩ ∧
      editor.circuit.programLines.length = 5 + (k + 1) ∧
      ∀ col, k + 1 ≤ col → editor.circuit.column col = .blank := by
  have hpress : s.press (.char 'x') = s.command (.toggleGate s.editor.cursor (.plain .x)) :=
    press_of_atCircuit h.atCircuit (.char 'x')
  obtain ⟨hlength, hcolumn⟩ :=
    Circuit.after_toggleGate h.editReachable hk (h.column_eq k (Nat.le_refl k))
  rw [h.cursor_eq] at hpress
  rw [← s.editor.circuit_perform] at hlength hcolumn
  refine ⟨(s.editor.perform (.toggleGate ⟨0, k⟩ (.plain .x))).1, hpress, ?_, ?_, ?_, ?_⟩
  · rw [s.editor.circuit_perform]
    exact h.editReachable.after _ rfl
  · rw [s.editor.cursor_perform, h.cursor_eq]
  · have hbefore := h.length_eq
    rw [programLength] at hbefore
    rw [hlength, hbefore, Nat.add_assoc]
  · intro col hcol
    rw [hcolumn col (by omega), h.column_eq col (by omega)]

/-- The gate is put down, and the cursor goes on to the next column. -/
theorem WrittenTo.next (h : s.WrittenTo k) (hk : k + 1 < d) :
    ((s.press (.char 'x')).press .right).WrittenTo (k + 1) := by
  obtain ⟨editor, hpress, hreach, hcursor, hlength, hblank⟩ := h.press_x (Nat.lt_of_succ_lt hk)
  have hs : ({ s with editor } : Session 1 d).AtCircuit := ⟨h.atCircuit.1, h.atCircuit.2⟩
  have hmove : editor.moveCursor .right = { editor with cursor := ⟨0, k + 1⟩ } := by
    simp only [Editor.moveCursor, hcursor, hk, if_true]
  have hright : ({ s with editor } : Session 1 d).press .right =
      { s with editor := { editor with cursor := ⟨0, k + 1⟩ } } := by
    rw [← hmove]
    exact press_of_atCircuit hs .right
  rw [hpress, hright]
  exact ⟨hreach, ⟨h.atCircuit.1, h.atCircuit.2⟩, rfl, hblank, hlength⟩

/-- The session after `k` gates have been put down, each in the next column. -/
def writeOn (s : Session n d) (k : Nat) : Session n d :=
  (fun s => (press s (.char 'x')).press .right)^[k] s

theorem WrittenTo.writeOn (h : s.WrittenTo 0) (hk : k < d) : (s.writeOn k).WrittenTo k := by
  induction k with
  | zero => exact h
  | succ k ih =>
    rw [Session.writeOn, Function.iterate_succ_apply']
    exact (ih (Nat.lt_of_succ_lt hk)).next hk

/-- The session after the program has been scrolled down some lines and one more gate has been put
down. -/
def scrollAndWrite (s : Session n d) (lines : Nat) : Session n d :=
  ((((press · .down)^[lines] (s.press .tab)).press .tab).press (.char 'x')).press .tab

/-- A program that sixteen bits can count is scrolled to its last line, and then it gets one line
more. -/
theorem WrittenTo.scrollAndWrite (h : s.WrittenTo k) (hk : k < d) {lines : Nat}
    (hlines : 5 + k = lines + 1) (hcount : 5 + k < 65536) (hscroll : s.scroll.toNat ≤ lines) :
    (s.scrollAndWrite lines).focus = .program ∧
      (s.scrollAndWrite lines).programLength = 5 + (k + 1) ∧
      (s.scrollAndWrite lines).scroll.toNat = lines := by
  have hopen : s.press .tab = { s with focus := .program } := press_of_atCircuit h.atCircuit .tab
  have hcut : s.programLength % 65536 - 1 = lines := by
    rw [h.length_eq]
    omega
  obtain ⟨scroll, hdown, hmin⟩ :=
    iterate_press_down (s := { s with focus := .program }) rfl
      (show s.scroll.toNat ≤ s.programLength % 65536 - 1 by rwa [hcut]) lines
  have hlast : scroll.toNat = lines := by
    rw [hmin]
    show min (s.scroll.toNat + lines) (s.programLength % 65536 - 1) = lines
    omega
  have hclose : ({ s with focus := .program, scroll } : Session 1 d).press .tab =
      { s with focus := .circuit, scroll } :=
    press_of_program rfl .tab
  have hback : ({ s with focus := .circuit, scroll } : Session 1 d).WrittenTo k :=
    ⟨h.editReachable, ⟨rfl, h.atCircuit.showsHelp_eq⟩, h.cursor_eq, h.column_eq, h.length_eq⟩
  obtain ⟨editor, hwrite, -, -, hlength, -⟩ := hback.press_x hk
  have hreopen : ({ s with editor, focus := .circuit, scroll } : Session 1 d).press .tab =
      { s with editor, focus := .program, scroll } :=
    press_of_atCircuit (s := { s with editor, focus := .circuit, scroll })
      ⟨rfl, h.atCircuit.showsHelp_eq⟩ .tab
  rw [Session.scrollAndWrite, hopen, hdown, hclose, hwrite, hreopen]
  exact ⟨rfl, hlength, hlast⟩

/-! ### Runs of any length -/

section

variable {settings : Settings} {s : Session settings.wires settings.depth}

theorem Reached.afterAll (h : s.Reached settings) (run : List (Event × Option String)) :
    (s.afterAll run).Reached settings := by
  induction run generalizing s with
  | nil => exact h
  | cons turn rest ih => exact ih (h.after turn.1 turn.2)

theorem Reached.press (h : s.Reached settings) (code : KeyCode) :
    (s.press code).Reached settings :=
  h.after _ _

theorem Reached.writeOn (h : s.Reached settings) (k : Nat) : (s.writeOn k).Reached settings :=
  Function.Iterate.rec (Reached settings) h (fun _ hs => (hs.press _).press _) k

theorem Reached.scrollAndWrite (h : s.Reached settings) (lines : Nat) :
    (s.scrollAndWrite lines).Reached settings := by
  have hdown : ((Session.press · .down)^[lines] (s.press .tab)).Reached settings :=
    Function.Iterate.rec (Reached settings) (h.press _) (fun _ hs => hs.press _) lines
  exact ((hdown.press _).press _).press _

end

/-- How far the program is scrolled, whatever events the session has seen and however saving went,
and however long its program is: by 65534 lines at most, so that there is a number of sixteen bits
for one line more.  From here on every run leads as far as counting without bound does, whatever
lengths the program has on the way, and keeps the bound, and so do the runs on a terminal. -/
theorem scroll_never_overflows {settings : Settings} {s : Session settings.wires settings.depth}
    (h : s.Reached settings) :
    s.scroll.toNat ≤ 65534 ∧
    (s.scroll + 1).toNat = s.scroll.toNat + 1 ∧
    (∀ run : List (Event × Option String),
      (s.afterAll run).scroll.toNat = s.countAll s.scroll.toNat run ∧
        (s.afterAll run).scroll.toNat ≤ 65534) ∧
    ∀ (t : Terminal settings.wires settings.depth) (events : List Event), t.session = s →
      (events.foldl Terminal.run t).session.scroll.toNat ≤ 65534 := by
  refine ⟨Nat.le_of_lt_succ h.scroll_lt_max, toNat_scroll_add_one h.scroll_lt_max,
    fun run => ⟨toNat_scroll_afterAll h.scroll_lt_max run, ?_⟩, fun t events hsession => ?_⟩
  · exact Nat.le_of_lt_succ (h.afterAll run).scroll_lt_max
  · have hreached : t.session.Reached settings := by rwa [hsession]
    exact Nat.le_of_lt_succ (Terminal.reached_run hreached events).scroll_lt_max

/-- Settings for one wire with room for a program of 65536 lines. -/
def longWire : Settings := { wires := 1, depth := 65531 }

/-- A session on that wire in which all columns but one have been filled, the program has been
scrolled to its last line, and the last column has been filled too. -/
def crammed : Session longWire.wires longWire.depth :=
  ((start (.start longWire.rotationStep) longWire.output).writeOn 65530).scrollAndWrite 65534

theorem reached_start_longWire :
    (start (.start longWire.rotationStep) longWire.output).Reached longWire :=
  .start (Editor.ofSettings_eq_ok (by decide +kernel))

theorem reached_crammed : crammed.Reached longWire :=
  (reached_start_longWire.writeOn 65530).scrollAndWrite 65534

theorem crammed_spec :
    crammed.focus = .program ∧ crammed.programLength = 65536 ∧ crammed.scroll.toNat = 65534 := by
  have hstart := writtenTo_start (d := 65531) longWire.rotationStep longWire.output
  have hscroll := (reached_start_longWire.writeOn 65530).scroll_lt_max
  exact (hstart.writeOn (k := 65530) (by decide)).scrollAndWrite (by decide) rfl (by decide)
    (Nat.le_of_lt_succ hscroll)

/-- In the crammed session the next key down leads to the top. -/
theorem scroll_never_overflows_crammed :
    crammed.Reached longWire ∧ crammed.programLength = 65536 ∧ crammed.lineCount = 0 ∧
      crammed.scroll.toNat = 65534 ∧ (crammed.scroll + 1).toNat = 65535 ∧
      (crammed.afterAll [(.press { code := .down }, none)]).scroll.toNat = 0 := by
  obtain ⟨hfocus, hlength, hscroll⟩ := crammed_spec
  have h := scroll_never_overflows reached_crammed
  have hcount : crammed.lineCount = 0 := by
    rw [← UInt16.toNat_inj, toNat_lineCount, hlength]
    rfl
  refine ⟨reached_crammed, hlength, hcount, hscroll, ?_, ?_⟩
  · rw [h.2.1, hscroll]
  · rw [(h.2.2.1 _).1, countAll, countAll, countAfter, hfocus, hscroll, hlength]
    rfl

end Session

end QuantumCircuit

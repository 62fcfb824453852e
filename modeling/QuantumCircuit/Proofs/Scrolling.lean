import QuantumCircuit.Proofs.Frame
import QuantumCircuit.Proofs.Modes

/-!
# Scrolling the program

The program panel is scrolled by a number of lines.  Scrolling down is held at the last line of
the program as it is then, and starting over scrolls back to the top.  Deleting a gate takes a
line away and leaves the number as it is.

* `scroll_within` : deleting is the only way past the end.  An event leaves the program scrolled
  past its end (`Session.PastEnd`) only if it was so before, or if it is a key that deletes a gate
  (`Session.AsksToDelete`); and if the program is at the top whenever it gets shorter
  (`Session.SteadilyReached`), then it is never scrolled past its last line.
* `scrolled_past_end` : a run that ends past the end.
-/

namespace QuantumCircuit

namespace Circuit

variable {n d : Nat}

theorem five_le_programLines (c : Circuit n d) : 5 ≤ c.programLines.length := by
  rw [programLines, List.length_append]
  exact Nat.le_add_right 5 _

/-- A program has at most one line for each cell after its preamble. -/
theorem programLines_le (c : Circuit n d) : c.programLines.length ≤ 5 + n * d := by
  have hcells : c.cells.length = n * d := by
    simp [cells, Nat.mul_comm]
  have hlines := List.length_filterMap_le c.lineAt c.cells
  rw [programLines_eq, List.length_append]
  show 5 + _ ≤ _
  omega

/-- A command that deletes no gate does not make the program shorter. -/
theorem length_after_command {c : Circuit n d} (h : c.EditReachable) {command : Command}
    (hkeep : ¬ command.Deletes c) :
    c.programLines.length ≤ (c.after (.command command)).programLines.length := by
  cases hresult : Editor.attempt c command with
  | error fault => exact Nat.le_of_eq (by rw [after, hresult, settle])
  | ok result =>
    rw [after, hresult, settle]
    exact (changedAt_attempt hresult hkeep).length_programLines h

end Circuit

theorem toNat_min (a b : UInt16) : (min a b).toNat = min a.toNat b.toNat := by
  show (if a ≤ b then a else b).toNat = _
  split <;> rename_i hle <;> rw [UInt16.le_iff_toNat_le] at hle <;> omega

theorem toNat_pred {a : UInt16} (h : a ≠ 0) : (a - 1).toNat = a.toNat - 1 := by
  have hpos : a.toNat ≠ 0 := fun hzero => h (UInt16.toNat_inj.1 hzero)
  have hle : 1 ≤ a := by
    rw [UInt16.le_iff_toNat_le, UInt16.toNat_one]
    omega
  rw [UInt16.toNat_sub_of_le _ _ hle, UInt16.toNat_one]

namespace Session

variable {n d : Nat} {s s' : Session n d} {e : Event}

/-- How many lines the program has. -/
def programLength (s : Session n d) : Nat := s.editor.circuit.programLines.length

/-- The program is scrolled past its last line. -/
def PastEnd (s : Session n d) : Prop := s.programLength ≤ s.scroll.toNat

/-- The key asks the circuit panel to delete what is under the cursor: it is a key for that, or the
key of a gate on a cell that is not empty. -/
def AsksToDelete (s : Session n d) (key : Key) : Prop :=
  s.AtCircuit ∧ key.control = false ∧ (key.code = .backspace ∨ key.code = .delete ∨
    ∃ ch entry, key.code = .char ch ∧ entryOfKey? ch = some entry ∧
      s.editor.selectedKind ≠ .empty)

theorem five_le_programLength (s : Session n d) : 5 ≤ s.programLength :=
  s.editor.circuit.five_le_programLines

theorem not_pastEnd_of_top (h : s.scroll = 0) : ¬ s.PastEnd := by
  intro hpast
  have hlength := s.five_le_programLength
  rw [PastEnd, h, UInt16.toNat_zero] at hpast
  omega

/-! ### The circuit of a session -/

/-- What a turn does to the circuit are actions that store no nodes of a caller's making. -/
theorem Turn.circuit_cases (hturn : s.Turn e s') :
    s'.editor.circuit = s.editor.circuit ∨
      ∃ a, a.isRaw = false ∧ s'.editor.circuit = s.editor.circuit.after a := by
  cases hturn with
  | work key hs hwork =>
    cases hwork with
    | told => exact .inl rfl
    | moved => exact .inl rfl
    | performed command => exact .inr ⟨.command command, rfl, s.editor.circuit_perform command⟩
    | cleared => exact .inr ⟨.reset, rfl, rfl⟩
  | submit key =>
    obtain ⟨status, heditor⟩ := s.editor_submitPrompt
    refine .inr ⟨.command (.rotateTo s.editor.cursor s.prompt), rfl, ?_⟩
    rw [heditor]
    exact s.editor.circuit_perform _
  | _ => exact .inl rfl

theorem Reached.editReachable {settings : Settings} {s : Session settings.wires settings.depth}
    (h : s.Reached settings) : s.editor.circuit.EditReachable := by
  induction h with
  | start hstart =>
    unfold Editor.ofSettings at hstart
    split at hstart
    · cases hstart
    · cases hstart
      exact .blank
  | @after s _ e reply ih =>
    rcases (turn_after s e reply).circuit_cases with heq | ⟨a, ha, heq⟩
    · rwa [heq]
    · rw [heq]
      exact ih.after a ha

/-! ### The length of the program -/

/-- A command makes the program shorter only if it deletes a gate. -/
theorem length_command (h : s.editor.circuit.EditReachable) {command : Command} {key : Key}
    (hdelete : command.Deletes s.editor.circuit → s.AsksToDelete key) :
    s.programLength ≤ (s.command command).programLength ∨ s.AsksToDelete key := by
  by_cases hdeletes : command.Deletes s.editor.circuit
  · exact .inr (hdelete hdeletes)
  · left
    rw [programLength, programLength, Session.command, Editor.circuit_perform]
    exact Circuit.length_after_command h hdeletes

theorem length_rotateSelected (h : s.editor.circuit.EditReachable) (steps : Binary64) :
    s.programLength ≤ (s.rotateSelected steps).programLength := by
  have hcircuit : (s.rotateSelected steps).editor.circuit = s.editor.circuit.after
      (.command (.rotate s.editor.cursor (steps * s.editor.rotationStep))) := by
    rw [← Editor.circuit_perform]
    unfold rotateSelected
    split <;> rename_i heq <;> rw [heq]
  rw [programLength, programLength, hcircuit]
  exact Circuit.length_after_command h not_false

theorem length_openPrompt (s : Session n d) : s.programLength ≤ s.openPrompt.programLength := by
  unfold openPrompt
  split
  · exact Nat.le_refl _
  · split <;> exact Nat.le_refl _

theorem length_submitPrompt (h : s.editor.circuit.EditReachable) :
    s.programLength ≤ s.submitPrompt.programLength := by
  obtain ⟨status, heditor⟩ := s.editor_submitPrompt
  rw [programLength, programLength, heditor]
  show _ ≤ (s.editor.perform _).1.circuit.programLines.length
  rw [Editor.circuit_perform]
  exact Circuit.length_after_command h not_false

/-- A key of a gate or of an arrow makes the program shorter only if it asks to delete. -/
theorem length_handleGateKey (h : s.editor.circuit.EditReachable) (hs : s.AtCircuit) {key : Key}
    (hcontrol : key.control = false) (reply : Option String) :
    s.programLength ≤ (served reply (s.handleGateKey key)).programLength ∨
      s.AsksToDelete key := by
  have hturn := s.gateTurn_handleGateKey key
  generalize s.handleGateKey key = result at hturn ⊢
  cases hturn with
  | quit | ignored | openProgram | openHelp | moved => exact .inl (Nat.le_refl _)
  | changed _ _ hkeep => exact length_command h fun hdeletes => absurd hdeletes hkeep
  | deleted hkey => exact .inr ⟨hs, hcontrol, hkey.imp_right .inl⟩
  | toggled ch entry hkey hentry =>
    exact length_command h fun hne => ⟨hs, hcontrol, .inr (.inr ⟨ch, entry, hkey, hentry, hne⟩)⟩
  | turned steps => exact .inl (length_rotateSelected h steps)
  | prompted => exact .inl (length_openPrompt s)

/-- A key of the circuit panel makes the program shorter only if it asks to delete, or it starts
over and scrolls back to the top. -/
theorem length_press (h : s.editor.circuit.EditReachable) (hs : s.AtCircuit) (key : Key)
    (reply : Option String) :
    (s.after (.press key) reply).scroll = 0 ∨
      s.programLength ≤ (s.after (.press key) reply).programLength ∨ s.AsksToDelete key := by
  unfold after handle
  dsimp only
  unfold handleKey
  split
  · exact .inr (.inl (Nat.le_refl _))
  · rw [hs.focus_eq]
    dsimp only
    unfold handleCircuitKey
    rw [hs.showsHelp_eq, if_neg Bool.false_ne_true]
    split
    · split
      · exact .inr (.inl (Nat.le_refl _))
      · exact .inl rfl
      · exact .inr (.inl (Nat.le_refl _))
    · rename_i hcontrol
      exact .inr (length_handleGateKey h hs (by simpa using hcontrol) reply)

/-- An event makes the program shorter only if it asks to delete, or the program is scrolled back
to the top with it. -/
theorem length_after (h : s.editor.circuit.EditReachable) (e : Event) (reply : Option String) :
    (s.after e reply).scroll = 0 ∨ s.programLength ≤ (s.after e reply).programLength ∨
      ∃ key, e = .press key ∧ s.AsksToDelete key := by
  have hturn := turn_after s e reply
  generalize hafter : s.after e reply = s' at hturn ⊢
  cases hturn with
  | work key hs hwork hscroll =>
    have hpress := length_press h hs key reply
    rw [hafter] at hpress
    exact hpress.imp_right (.imp_right fun hasks => ⟨key, rfl, hasks⟩)
  | submit key => exact .inr (.inl (length_submitPrompt h))
  | _ => exact .inr (.inl (Nat.le_refl _))

/-! ### Scrolling -/

theorem toNat_lineCount (s : Session n d) : s.lineCount.toNat = s.programLength % 65536 :=
  UInt16.toNat_ofNat'

theorem toNat_scrollUp (s : Session n d) : s.scrollUp.scroll.toNat = s.scroll.toNat - 1 := by
  unfold scrollUp
  dsimp only
  split
  · rename_i hscroll
    rw [hscroll, UInt16.toNat_zero]
  · rename_i hscroll
    exact toNat_pred hscroll

/-- Scrolling down is held at the last line of as many as sixteen bits can tell. -/
theorem toNat_scrollDown (s : Session n d) :
    s.scrollDown.scroll.toNat = min (s.scroll + 1).toNat (s.programLength % 65536 - 1) := by
  rw [← toNat_lineCount]
  unfold scrollDown
  dsimp only
  rw [toNat_min]
  split
  · rename_i hcount
    rw [hcount, UInt16.toNat_zero]
  · rename_i hcount
    rw [toNat_pred hcount]

/-- However many lines there are, scrolling down ends at the last line or before. -/
theorem scroll_scrollDown_le (s : Session n d) :
    s.scrollDown.scroll.toNat ≤ s.programLength - 1 := by
  have hlines := Nat.mod_le s.programLength 65536
  rw [toNat_scrollDown]
  omega

theorem not_pastEnd_scrollDown (s : Session n d) : ¬ s.scrollDown.PastEnd := by
  intro hpast
  have hscroll := s.scroll_scrollDown_le
  have hlength := s.five_le_programLength
  rw [PastEnd] at hpast
  -- Scrolling leaves the program as it is.
  have hsame : s.scrollDown.programLength = s.programLength := rfl
  omega

/-- A turn scrolls further only where it is held at the last line. -/
theorem Turn.scroll_cases (hturn : s.Turn e s') :
    s'.scroll.toNat ≤ s.scroll.toNat ∨ s' = s.scrollDown := by
  cases hturn with
  | work key hs hwork hscroll =>
    rcases hscroll with rfl | rfl
    · exact .inl (Nat.le_refl _)
    · exact .inl (Nat.zero_le _)
  | scrollUp key =>
    left
    rw [toNat_scrollUp]
    exact Nat.sub_le _ _
  | scrollDown key => exact .inr rfl
  | submit key => exact .inl (Nat.le_refl _)
  | _ => exact .inl (Nat.le_refl _)

/-- An event leaves the program scrolled past its end only if it was so before, or if it asks to
delete and the program gets shorter. -/
theorem pastEnd_after (h : s.editor.circuit.EditReachable) {e : Event} {reply : Option String}
    (hpast : (s.after e reply).PastEnd) :
    s.PastEnd ∨ (s.after e reply).programLength < s.programLength ∧
      ∃ key, e = .press key ∧ s.AsksToDelete key := by
  have hscroll : (s.after e reply).scroll.toNat ≤ s.scroll.toNat := by
    rcases (turn_after s e reply).scroll_cases with hle | heq
    · exact hle
    · rw [heq] at hpast
      exact absurd hpast s.not_pastEnd_scrollDown
  -- Unless the program gets shorter, what is past its end now was so before.
  by_cases hlength : s.programLength ≤ (s.after e reply).programLength
  · left
    rw [PastEnd] at hpast ⊢
    omega
  · right
    refine ⟨Nat.lt_of_not_le hlength, ?_⟩
    rcases length_after h e reply with htop | hle | hasks
    · exact absurd hpast (not_pastEnd_of_top htop)
    · exact absurd hle hlength
    · exact hasks

/-! ### Runs -/

/-- The sessions that some run of events leads to in which the program panel is at the top whenever
the program has become shorter. -/
inductive SteadilyReached (settings : Settings) : Session settings.wires settings.depth → Prop
  | start {editor : Editor settings.wires settings.depth}
      (h : Editor.ofSettings settings = .ok editor) :
      SteadilyReached settings (start editor settings.output)
  | after {s : Session settings.wires settings.depth} (h : SteadilyReached settings s) (e : Event)
      (reply : Option String)
      (htop : (s.after e reply).programLength < s.programLength → (s.after e reply).scroll = 0) :
      SteadilyReached settings (s.after e reply)

variable {settings : Settings} {s : Session settings.wires settings.depth}

theorem SteadilyReached.reached (h : s.SteadilyReached settings) : s.Reached settings := by
  induction h with
  | start hstart => exact .start hstart
  | after _ e reply _ ih => exact ih.after e reply

theorem SteadilyReached.not_pastEnd (h : s.SteadilyReached settings) : ¬ s.PastEnd := by
  induction h with
  | start hstart => exact not_pastEnd_of_top rfl
  | after hs e reply htop ih =>
    intro hpast
    rcases pastEnd_after hs.reached.editReachable hpast with hbefore | ⟨hshorter, -⟩
    · exact ih hbefore
    · exact not_pastEnd_of_top (htop hshorter) hpast

theorem Reached.scroll_lt (h : s.Reached settings) :
    s.scroll.toNat < 5 + settings.wires * settings.depth := by
  induction h with
  | start hstart =>
    show 0 < _
    omega
  | @after s _ e reply ih =>
    rcases (turn_after s e reply).scroll_cases with hle | heq
    · omega
    · have hscroll := s.scroll_scrollDown_le
      have hlength := s.five_le_programLength
      have hlines : s.programLength ≤ 5 + settings.wires * settings.depth :=
        s.editor.circuit.programLines_le
      rw [heq]
      omega

end Session

namespace Terminal

theorem drawn_serve {n d : Nat} (t : Terminal n d) (request : Request) :
    (t.serve request).drawn = t.drawn := by
  cases request with
  | save path text =>
    unfold serve
    dsimp only
    split <;> rfl
  | _ => rfl

/-- What a terminal shows after an event is the session before it or the session after it. -/
theorem drawn_run {n d : Nat} (t : Terminal n d) (e : Event) :
    (t.run e).drawn = some t.session ∨ (t.run e).drawn = some (t.run e).session := by
  unfold run
  dsimp only
  split
  · exact .inl (drawn_serve _ _)
  · exact .inr rfl

/-- Whatever a terminal shows in a run is a session that has been reached. -/
theorem reached_drawn {settings : Settings} {t : Terminal settings.wires settings.depth}
    (h : t.session.Reached settings)
    (hdrawn : ∀ shown, t.drawn = some shown → shown.Reached settings) (events : List Event)
    {shown : Session settings.wires settings.depth}
    (hshown : (events.foldl run t).drawn = some shown) : shown.Reached settings := by
  induction events generalizing t with
  | nil => exact hdrawn shown hshown
  | cons e rest ih =>
    have hnext : (t.run e).session.Reached settings := reached_run h [e]
    refine ih hnext (fun next hnextdrawn => ?_) hshown
    rcases t.drawn_run e with heq | heq <;> rw [heq] at hnextdrawn <;> cases hnextdrawn
    · exact h
    · exact hnext

end Terminal

namespace Session

variable {settings : Settings} {s : Session settings.wires settings.depth}

/-- How far the program is scrolled, whatever events the session has seen and however saving went:
never as far as the longest program of the circuit has lines, and after scrolling down never past
the last line of the program as it is.  An event leaves the program scrolled past its end only if
it was so before, or if it is a key that asks the circuit panel to delete and the program gets
shorter by it.  If the panel is at the top whenever the program has become shorter, then it is
never scrolled past the last line.  All sessions that a terminal draws from here on are reached
too. -/
theorem scroll_within (h : s.Reached settings) :
    s.scroll.toNat < 5 + settings.wires * settings.depth ∧
    s.scrollDown.scroll.toNat ≤ s.programLength - 1 ∧
    (∀ e reply, (s.after e reply).PastEnd →
      s.PastEnd ∨ (s.after e reply).programLength < s.programLength ∧
        ∃ key, e = .press key ∧ s.AsksToDelete key) ∧
    (s.SteadilyReached settings → s.scroll.toNat ≤ s.programLength - 1) ∧
    ∀ (t : Terminal settings.wires settings.depth) (events : List Event) (shown),
      t.session = s → t.drawn = none → (events.foldl Terminal.run t).drawn = some shown →
      shown.Reached settings := by
  refine ⟨h.scroll_lt, s.scroll_scrollDown_le, fun e reply hpast => ?_, fun hsteady => ?_,
    fun t events shown hsession hdrawn hshown => ?_⟩
  · exact pastEnd_after h.editReachable hpast
  · have hwithin := hsteady.not_pastEnd
    rw [PastEnd] at hwithin
    omega
  · refine Terminal.reached_drawn (by rwa [hsession]) (fun _ hsome => ?_) events hshown
    rw [hdrawn] at hsome
    cases hsome

/-- Settings for a circuit of one cell. -/
def oneCell : Settings := { wires := 1, depth := 1 }

/-- A session in which an X gate has been put down and the program has been scrolled to its line. -/
def scrolled : Session oneCell.wires oneCell.depth :=
  [.char 'x', .tab, .down, .down, .down, .down, .down, .tab].foldl
    (fun s code => s.after (.press { code }) none)
    (start (.start oneCell.rotationStep) oneCell.output)

/-- The key that deletes the gate. -/
def deleteKey : Key := { code := .delete }

theorem steadilyReached_scrolled : scrolled.SteadilyReached oneCell := by
  unfold scrolled
  simp only [List.foldl_cons, List.foldl_nil]
  iterate 8 refine .after ?_ _ _ (by decide +kernel)
  exact .start (Editor.ofSettings_eq_ok (by decide +kernel))

theorem scroll_within_scrolled :
    scrolled.SteadilyReached oneCell ∧ scrolled.scroll.toNat = 5 ∧
      scrolled.scroll.toNat ≤ scrolled.programLength - 1 ∧
      (scrolled.after (.press deleteKey) none).PastEnd ∧
      (scrolled.PastEnd ∨
        (scrolled.after (.press deleteKey) none).programLength < scrolled.programLength ∧
          ∃ key, Event.press deleteKey = .press key ∧ scrolled.AsksToDelete key) := by
  have h := scroll_within steadilyReached_scrolled.reached
  have hpast : (scrolled.after (.press deleteKey) none).PastEnd := by
    unfold PastEnd
    decide +kernel
  exact ⟨steadilyReached_scrolled, by decide +kernel, h.2.2.2.1 steadilyReached_scrolled, hpast,
    h.2.2.1 _ none hpast⟩

/-- A terminal that shows a program of five lines scrolled by five lines. -/
theorem scrolled_past_end :
    ∃ shown : Session oneCell.wires oneCell.depth,
      (([.char 'x', .tab, .down, .down, .down, .down, .down, .tab, .delete].map
        fun code => Event.press { code }).foldl Terminal.run
          (.start (start (.start oneCell.rotationStep) oneCell.output) 80 24)).drawn =
        some shown ∧ shown.scroll.toNat = 5 ∧ shown.programLength = 5 :=
  ⟨scrolled.after (.press deleteKey) none, by decide +kernel, by decide +kernel,
    by decide +kernel⟩

end Session

end QuantumCircuit

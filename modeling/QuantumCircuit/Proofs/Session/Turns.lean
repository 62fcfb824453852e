import QuantumCircuit.Proofs.History
import QuantumCircuit.Session.Terminal

/-!
# Runs of a session

A session takes one turn for each event.  If the event asks to save the program, then the turn is
over once the surroundings have replied (`Session.after`); nothing is assumed about the reply.

* `Session.Reached` : the sessions that some run of events leads to, from settings without fault;
* `Session.GateTurn` : what a key of the circuit panel can do, each way with what it asks of the
  key.  `Session.gateTurn_handleGateKey` is the one place where the keys are looked up.
* `Session.Turn` : what a turn can do, each way with what it asks of the session, and
  `Session.turn_after` sorts every turn under it.  Invariants of sessions are proved by cases over
  `Turn` and never look at the keys again.
-/

namespace QuantumCircuit

namespace Session

variable {n d : Nat} {s : Session n d}

/-- The session once its request has been served.  The reply to a request to save is the fault, if
there is one. -/
def served (reply : Option String) : Session n d × Request → Session n d
  | (s, .nothing) | (s, .quit) => s
  | (s, .save _ _) => s.reportSave reply

/-- The session after an event. -/
def after (s : Session n d) (e : Event) (reply : Option String) : Session n d :=
  served reply (s.handle e)

/-- The sessions that some run of events leads to.  To quit changes nothing, so a run that goes on
after it leads nowhere else. -/
inductive Reached (settings : Settings) : Session settings.wires settings.depth → Prop
  | start {editor : Editor settings.wires settings.depth}
      (h : Editor.ofSettings settings = .ok editor) :
      Reached settings (start editor settings.output)
  | after {s : Session settings.wires settings.depth} (h : Reached settings s) (e : Event)
      (reply : Option String) : Reached settings (s.after e reply)

end Session

/-- Settings without fault open an editor of a blank circuit. -/
theorem Editor.ofSettings_eq_ok {settings : Settings} (h : settings.fault? = none) :
    Editor.ofSettings settings = .ok (.start settings.rotationStep) := by
  rw [Editor.ofSettings, h]

/-- What a turn in the circuit panel can make of the editor. -/
inductive Editor.Worked {n d : Nat} (e : Editor n d) : Editor n d → Prop
  | told (status : String) : Worked e { e with status }
  | moved (direction : Direction) : Worked e (e.moveCursor direction)
  /-- A command at the cursor, whether it is refused or not. -/
  | performed (command : Command) (hcell : command.cell = e.cursor) (status : String) :
      Worked e { (e.perform command).1 with status }
  | cleared (status : String) : Worked e { e.reset with status }

namespace Session

variable {n d : Nat} {s s' : Session n d}

/-- The keys of the circuit panel act on the circuit: it has the focus, and no help is shown. -/
structure AtCircuit (s : Session n d) : Prop where
  focus_eq : s.focus = .circuit
  showsHelp_eq : s.showsHelp = false

/-- What an event can make of a session. -/
inductive Turn (s : Session n d) : Event → Session n d → Prop
  | idle (e : Event) : Turn s e s
  | work (key : Key) (hs : s.AtCircuit) {editor : Editor n d} (h : s.editor.Worked editor)
      {scroll : UInt16} (hscroll : scroll = s.scroll ∨ scroll = 0) :
      Turn s (.press key) { s with editor, scroll }
  | openHelp (key : Key) (hs : s.AtCircuit) : Turn s (.press key) { s with showsHelp := true }
  | closeHelp (key : Key) (hs : s.focus = .circuit) :
      Turn s (.press key) { s with showsHelp := false }
  | openProgram (key : Key) (hs : s.AtCircuit) : Turn s (.press key) { s with focus := .program }
  | closeProgram (key : Key) (hs : s.focus = .program) :
      Turn s (.press key) { s with focus := .circuit }
  | scrollUp (key : Key) (hs : s.focus = .program) : Turn s (.press key) s.scrollUp
  | scrollDown (key : Key) (hs : s.focus = .program) : Turn s (.press key) s.scrollDown
  | openPrompt (key : Key) (hs : s.AtCircuit) (hkind : s.editor.selected.kind.isRotatable = true) :
      Turn s (.press key)
        { s with prompt := Angle.write s.editor.selected.theta, focus := .anglePrompt }
  | type (key : Key) (hs : s.focus = .anglePrompt) (prompt : String) :
      Turn s (.press key) { s with prompt }
  | cancel (key : Key) (hs : s.focus = .anglePrompt) : Turn s (.press key) s.cancelPrompt
  | submit (key : Key) (hs : s.focus = .anglePrompt) (hkey : key.code = .enter) :
      Turn s (.press key) s.submitPrompt

/-! ### Keys of the circuit panel -/

/-- What a key can do in the circuit panel while no help is shown and control is not held, each way
with what it asks of the key. -/
inductive GateTurn (s : Session n d) (key : Key) : Session n d × Request → Prop
  | quit : GateTurn s key (s, .quit)
  | ignored : GateTurn s key (s, .nothing)
  | openProgram : GateTurn s key ({ s with focus := .program }, .nothing)
  | openHelp : GateTurn s key ({ s with showsHelp := true }, .nothing)
  | moved (direction : Direction) :
      GateTurn s key ({ s with editor := s.editor.moveCursor direction }, .nothing)
  /-- A command at the cursor that deletes no gate. -/
  | changed (command : Command) (hcell : command.cell = s.editor.cursor)
      (hkeep : ¬ command.Deletes s.editor.circuit) : GateTurn s key (s.command command, .nothing)
  | deleted (hkey : key.code = .backspace ∨ key.code = .delete) :
      GateTurn s key (s.command (.delete s.editor.cursor), .nothing)
  | toggled (ch : Char) (entry : PaletteEntry) (hkey : key.code = .char ch)
      (hentry : entryOfKey? ch = some entry) :
      GateTurn s key (s.command (.toggleGate s.editor.cursor entry.kind), .nothing)
  | turned (steps : Binary64) : GateTurn s key (s.rotateSelected steps, .nothing)
  | prompted (hkey : key.code = .char 'r') : GateTurn s key (s.openPrompt, .nothing)

/-- Every key does one of those. -/
theorem gateTurn_handleGateKey (s : Session n d) (key : Key) :
    s.GateTurn key (s.handleGateKey key) := by
  unfold handleGateKey
  cases hcode : key.code with
  | escape => exact .quit
  | tab => exact .openProgram
  | up | down =>
    dsimp only
    split
    · exact .changed _ rfl not_false
    · exact .moved _
  | left | right => exact .moved _
  | backspace => exact .deleted (.inl hcode)
  | delete => exact .deleted (.inr hcode)
  | char ch =>
    dsimp only
    split
    -- What stands in an arm says which way it is, so the order of the arms plays no part.
    any_goals first
      | contradiction
      | exact .quit
      | exact .ignored
      | exact .openHelp
      | exact .changed _ rfl not_false
      | exact .turned _
      | exact .prompted (hcode.trans ‹_›)
    -- The other characters are those of the palette.
    split
    · rename_i hentry
      exact .toggled _ _ (hcode.trans ‹_›) hentry
    · exact .ignored
  | _ => exact .ignored

theorem Turn.editor {key : Key} (hs : s.AtCircuit) {editor : Editor n d}
    (h : s.editor.Worked editor) : s.Turn (.press key) { s with editor } :=
  .work key hs h (.inl rfl)

theorem turn_command (key : Key) (hs : s.AtCircuit) {c : Command}
    (hcell : c.cell = s.editor.cursor) : s.Turn (.press key) (s.command c) :=
  .editor hs (.performed c hcell _)

theorem turn_move (key : Key) (hs : s.AtCircuit) (direction : Direction) :
    s.Turn (.press key) { s with editor := s.editor.moveCursor direction } :=
  .editor hs (.moved direction)

theorem turn_rotateSelected (key : Key) (hs : s.AtCircuit) (steps : Binary64) :
    s.Turn (.press key) (s.rotateSelected steps) := by
  have hperformed := Editor.Worked.performed (e := s.editor)
    (.rotate s.editor.cursor (steps * s.editor.rotationStep)) rfl
  unfold rotateSelected
  -- The status is that of the command, or it shows the new angle.
  split
  all_goals
    rename_i heq
    rw [heq] at hperformed
    exact .editor hs (hperformed _)

theorem turn_openPrompt (key : Key) (hs : s.AtCircuit) : s.Turn (.press key) s.openPrompt := by
  unfold Session.openPrompt
  split
  · rename_i hkind
    exact .openPrompt key hs hkind
  · split
    · exact .editor hs (.told _)
    · exact .editor hs (.told _)

theorem turn_handleGateKey (hs : s.AtCircuit) (key : Key) (reply : Option String) :
    s.Turn (.press key) (served reply (s.handleGateKey key)) := by
  have hturn := s.gateTurn_handleGateKey key
  generalize s.handleGateKey key = result at hturn ⊢
  cases hturn with
  | quit | ignored => exact .idle _
  | openProgram => exact .openProgram key hs
  | openHelp => exact .openHelp key hs
  | moved direction => exact turn_move key hs direction
  | changed command hcell => exact turn_command key hs hcell
  | deleted | toggled => exact turn_command key hs rfl
  | turned steps => exact turn_rotateSelected key hs steps
  | prompted => exact turn_openPrompt key hs

theorem turn_handleCircuitKey (hfocus : s.focus = .circuit) (key : Key) (reply : Option String) :
    s.Turn (.press key) (served reply (s.handleCircuitKey key)) := by
  unfold handleCircuitKey
  split
  · split
    · exact .closeHelp key hfocus
    · exact .closeHelp key hfocus
    · exact .idle _
  · rename_i hhelp
    have hs : s.AtCircuit := ⟨hfocus, by simpa using hhelp⟩
    split
    · split
      · exact .editor hs (.told _)
      · exact .work key hs (.cleared _) (.inr rfl)
      · exact .idle _
    · exact turn_handleGateKey hs key reply

/-! ### Events -/

theorem turn_handleProgramKey (hs : s.focus = .program) (key : Key) (reply : Option String) :
    s.Turn (.press key) (served reply (s.handleProgramKey key)) := by
  unfold handleProgramKey
  cases key.code with
  | tab | escape => exact .closeProgram key hs
  | up => exact .scrollUp key hs
  | down => exact .scrollDown key hs
  | char _ => split <;> first | contradiction | exact .idle _
  | _ => exact .idle _

theorem turn_handlePromptKey (hs : s.focus = .anglePrompt) (key : Key) :
    s.Turn (.press key) (s.handlePromptKey key) := by
  unfold handlePromptKey
  cases hcode : key.code with
  | escape => exact .cancel key hs
  | backspace => exact .type key hs _
  | enter => exact .submit key hs hcode
  | char ch =>
    dsimp only
    unfold typeChar
    split
    · exact .type key hs _
    · exact .idle _
  | _ => exact .idle _

/-- Every turn is one of those. -/
theorem turn_after (s : Session n d) (e : Event) (reply : Option String) :
    s.Turn e (s.after e reply) := by
  unfold after handle
  cases e with
  | press key =>
    dsimp only
    unfold handleKey
    split
    · exact .idle _
    · cases hfocus : s.focus with
      | circuit => exact turn_handleCircuitKey hfocus key reply
      | program => exact turn_handleProgramKey hfocus key reply
      | anglePrompt => exact turn_handlePromptKey hfocus key
  | _ => exact .idle _

end Session

/-! ### Terminals -/

/-- On a terminal a session takes its turns, with the replies of the folder. -/
theorem Terminal.session_run {n d : Nat} (t : Terminal n d) (e : Event) :
    ∃ reply, (t.run e).session = t.session.after e reply := by
  have hdraw : (t.run e).session =
      (serve { t.resize e with session := (t.session.handle e).1, drawn := some t.session }
        (t.session.handle e).2).session := by
    unfold Terminal.run
    dsimp only
    split <;> rfl
  rw [hdraw]
  unfold Session.after
  obtain ⟨s, request⟩ := t.session.handle e
  cases request with
  | nothing => exact ⟨none, rfl⟩
  | quit => exact ⟨none, rfl⟩
  | save path text =>
    dsimp only [serve]
    split
    · exact ⟨none, rfl⟩
    · rename_i fault _
      exact ⟨some fault.message, rfl⟩

/-- A run of events on a terminal leads to sessions that are reached. -/
theorem Terminal.reached_run {settings : Settings} {t : Terminal settings.wires settings.depth}
    (h : t.session.Reached settings) (events : List Event) :
    (events.foldl run t).session.Reached settings := by
  induction events generalizing t with
  | nil => exact h
  | cons e rest ih =>
    refine ih ?_
    obtain ⟨reply, hreply⟩ := t.session_run e
    rw [hreply]
    exact h.after e reply

end QuantumCircuit

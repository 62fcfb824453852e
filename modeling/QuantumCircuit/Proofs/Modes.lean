import Mathlib.Tactic.ByContra
import Mathlib.Tactic.SplitIfs
import QuantumCircuit.Proofs.Session.Turns

/-!
# The modes of a session

Which panel has the focus, whether the help is shown, what stands in the angle prompt, and where
the cursor is: these hang together (`Session.Coherent`).  None of them is an invariant by itself.
While the prompt is open nothing moves the cursor or changes the circuit, so the gate that it was
opened for stays under the cursor; and while the help is shown nothing takes the focus away.

* `modes_coherent` : the modes of a session hang together after every run of events, and its
  circuit and its cursor change only by keys of the circuit panel, or the circuit by entering an
  angle.
-/

namespace QuantumCircuit

/-- A gate takes an angle exactly if its symbol is that of a rotation. -/
theorem Node.isRotatable_kind_iff {x : Node} :
    x.kind.isRotatable = true ↔ x.kind.symbol ∈ [Symbol.x, .y, .z] := by
  rw [Kind.isRotatable]
  cases x.kind.symbol <;> decide

namespace Editor

variable {n d : Nat} {e e' : Editor n d}

/-- The cursor is on a cell of the circuit. -/
structure CursorInside (e : Editor n d) : Prop where
  row_lt : e.cursor.row < n
  col_lt : e.cursor.col < d

theorem cursor_perform (e : Editor n d) (command : Command) :
    (e.perform command).1.cursor = e.cursor := by
  unfold perform
  split <;> rfl

theorem CursorInside.moveCursor (h : e.CursorInside) (direction : Direction) :
    (e.moveCursor direction).CursorInside := by
  obtain ⟨hrow, hcol⟩ := h
  obtain ⟨hrow', hcol'⟩ := e.moveCursor_bounds direction
  exact ⟨by omega, by omega⟩

theorem CursorInside.worked (h : e.CursorInside) (hwork : e.Worked e') : e'.CursorInside := by
  cases hwork with
  | told status => exact ⟨h.row_lt, h.col_lt⟩
  | moved direction => exact h.moveCursor direction
  | performed command hcell status =>
    refine ⟨?_, ?_⟩
    · change (e.perform command).1.cursor.row < n
      rw [cursor_perform]
      exact h.row_lt
    · change (e.perform command).1.cursor.col < d
      rw [cursor_perform]
      exact h.col_lt
  | cleared status => exact ⟨Nat.zero_lt_of_lt h.row_lt, Nat.zero_lt_of_lt h.col_lt⟩

end Editor

namespace Session

variable {n d : Nat} {s s' : Session n d} {e : Event}

/-- The modes of the session fit together. -/
structure Coherent (s : Session n d) : Prop where
  cursor : s.editor.CursorInside
  focus_of_showsHelp : s.showsHelp = true → s.focus = .circuit
  focus_of_prompt : s.prompt ≠ "" → s.focus = .anglePrompt
  isRotatable_of_focus : s.focus = .anglePrompt → s.editor.selected.kind.isRotatable = true

theorem AtCircuit.focus_ne (hs : s.AtCircuit) : s.focus ≠ .anglePrompt := by
  rw [hs.focus_eq]
  decide

theorem AtCircuit.not_showsHelp (hs : s.AtCircuit) : ¬ s.showsHelp = true := by
  rw [hs.showsHelp_eq]
  decide

/-- Nothing is written in a prompt that is closed. -/
theorem Coherent.prompt_eq (h : s.Coherent) (hs : s.focus ≠ .anglePrompt) : s.prompt = "" :=
  Classical.not_not.1 fun hne => hs (h.focus_of_prompt hne)

/-- While the prompt is closed, only the help ties the modes together. -/
theorem coherent_of_closed (hcursor : s.editor.CursorInside)
    (hhelp : s.showsHelp = true → s.focus = .circuit) (hprompt : s.prompt = "")
    (hfocus : s.focus ≠ .anglePrompt) : s.Coherent :=
  ⟨hcursor, hhelp, fun hne => absurd hprompt hne, fun hs => absurd hs hfocus⟩

theorem coherent_start {settings : Settings} {editor : Editor settings.wires settings.depth}
    (h : Editor.ofSettings settings = .ok editor) (output : String) :
    (start editor output).Coherent := by
  refine coherent_of_closed ?_ nofun rfl nofun
  unfold Editor.ofSettings Settings.fault? at h
  split at h
  · cases h
  · rename_i hfault
    cases h
    split_ifs at hfault with hwires hdepth
    exact ⟨Nat.pos_of_ne_zero hwires, Nat.pos_of_ne_zero hdepth⟩

/-- Entering an angle is a command, whose outcome the status line may word in another way. -/
theorem editor_submitPrompt (s : Session n d) :
    ∃ status, s.submitPrompt.editor =
      { (s.editor.perform (.rotateTo s.editor.cursor s.prompt)).1 with status } := by
  unfold submitPrompt
  generalize s.editor.perform (.rotateTo s.editor.cursor s.prompt) = result
  obtain ⟨editor, outcome⟩ := result
  cases outcome with
  | ok told => exact ⟨_, rfl⟩
  | error fault => exact ⟨editor.status, rfl⟩

theorem Coherent.turn (h : s.Coherent) (hturn : s.Turn e s') : s'.Coherent := by
  cases hturn with
  | idle => exact h
  | work key hs hwork hscroll =>
    exact coherent_of_closed (h.cursor.worked hwork) (fun _ => hs.focus_eq)
      (h.prompt_eq hs.focus_ne) hs.focus_ne
  | openHelp key hs =>
    exact coherent_of_closed h.cursor (fun _ => hs.focus_eq) (h.prompt_eq hs.focus_ne) hs.focus_ne
  | closeHelp key hs => exact ⟨h.cursor, nofun, h.focus_of_prompt, h.isRotatable_of_focus⟩
  | openProgram key hs =>
    exact coherent_of_closed h.cursor (fun hhelp => absurd hhelp hs.not_showsHelp)
      (h.prompt_eq hs.focus_ne) nofun
  | closeProgram key hs =>
    exact coherent_of_closed h.cursor (fun _ => rfl) (h.prompt_eq (by rw [hs]; decide)) nofun
  | scrollUp key hs =>
    exact ⟨h.cursor, h.focus_of_showsHelp, h.focus_of_prompt, h.isRotatable_of_focus⟩
  | scrollDown key hs =>
    exact ⟨h.cursor, h.focus_of_showsHelp, h.focus_of_prompt, h.isRotatable_of_focus⟩
  | openPrompt key hs hkind =>
    exact ⟨h.cursor, fun hhelp => absurd hhelp hs.not_showsHelp, fun _ => rfl, fun _ => hkind⟩
  | type key hs prompt =>
    exact ⟨h.cursor, h.focus_of_showsHelp, fun _ => hs, h.isRotatable_of_focus⟩
  | cancel key hs => exact coherent_of_closed h.cursor (fun _ => rfl) rfl nofun
  | submit key hs hkey =>
    obtain ⟨status, heditor⟩ := s.editor_submitPrompt
    have hcursor : s.submitPrompt.editor.CursorInside := by
      rw [heditor]
      exact h.cursor.worked (.performed _ rfl _)
    exact coherent_of_closed hcursor (fun _ => rfl) rfl nofun

theorem Reached.coherent {settings : Settings} {s : Session settings.wires settings.depth}
    (h : s.Reached settings) : s.Coherent := by
  induction h with
  | start hstart => exact coherent_start hstart _
  | after _ e reply ih => exact ih.turn (turn_after _ e reply)

/-! ### What changes the circuit and the cursor -/

/-- A turn leaves the circuit and the cursor alone, or it is taken by the circuit panel, or an
angle is entered, which leaves the cursor alone. -/
theorem Turn.editor_cases (hturn : s.Turn e s') :
    (s'.editor.circuit = s.editor.circuit ∧ s'.editor.cursor = s.editor.cursor) ∨
      (∃ key, e = .press key ∧ s.AtCircuit) ∨
      (∃ key, e = .press key ∧ s.focus = .anglePrompt ∧ key.code = .enter) ∧
        s'.editor.cursor = s.editor.cursor := by
  cases hturn with
  | work key hs => exact .inr (.inl ⟨key, rfl, hs⟩)
  | submit key hs hkey =>
    obtain ⟨status, heditor⟩ := s.editor_submitPrompt
    refine .inr (.inr ⟨⟨key, rfl, hs, hkey⟩, ?_⟩)
    rw [heditor]
    exact s.editor.cursor_perform _
  | _ => exact .inl ⟨rfl, rfl⟩

/-- The modes of a session hang together, whatever events it has seen and however saving went: the
cursor is on a cell of the circuit, the help is shown over the circuit panel only, something is
written in the prompt only while it is open, and then the gate under the cursor is a rotation.  An
event changes the cursor only if it is a key that the circuit panel takes while no help is shown,
and the circuit only if it is such a key or enters an angle. -/
theorem modes_coherent {settings : Settings} {s : Session settings.wires settings.depth}
    (h : s.Reached settings) :
    (s.editor.cursor.row < settings.wires ∧ s.editor.cursor.col < settings.depth) ∧
    (s.showsHelp = true → s.focus = .circuit) ∧
    (s.prompt ≠ "" → s.focus = .anglePrompt) ∧
    (s.focus = .anglePrompt → s.editor.selected.kind.symbol ∈ [Symbol.x, .y, .z]) ∧
    ∀ e reply,
      ((s.after e reply).editor.cursor ≠ s.editor.cursor →
        ∃ key, e = .press key ∧ s.focus = .circuit ∧ s.showsHelp = false) ∧
      ((s.after e reply).editor.circuit ≠ s.editor.circuit →
        ∃ key, e = .press key ∧ (s.focus = .circuit ∧ s.showsHelp = false ∨
          s.focus = .anglePrompt ∧ key.code = .enter)) := by
  have hcoherent := h.coherent
  refine ⟨⟨hcoherent.cursor.row_lt, hcoherent.cursor.col_lt⟩, hcoherent.focus_of_showsHelp,
    hcoherent.focus_of_prompt,
    fun hs => Node.isRotatable_kind_iff.1 (hcoherent.isRotatable_of_focus hs),
    fun e reply => ⟨fun hcursor => ?_, fun hcircuit => ?_⟩⟩
  · rcases (turn_after s e reply).editor_cases with ⟨-, heq⟩ | ⟨key, rfl, hs⟩ | ⟨-, heq⟩
    · exact absurd heq hcursor
    · exact ⟨key, rfl, hs.focus_eq, hs.showsHelp_eq⟩
    · exact absurd heq hcursor
  · rcases (turn_after s e reply).editor_cases with ⟨heq, -⟩ | ⟨key, rfl, hs⟩ | ⟨⟨key, rfl, hs⟩, -⟩
    · exact absurd heq hcircuit
    · exact ⟨key, rfl, .inl ⟨hs.focus_eq, hs.showsHelp_eq⟩⟩
    · exact ⟨key, rfl, .inr hs⟩

/-- Settings for a small circuit. -/
def smallSettings : Settings := { wires := 2, depth := 2 }

/-- A terminal at which those settings were just loaded. -/
def opened : Terminal smallSettings.wires smallSettings.depth :=
  .start (start (.start smallSettings.rotationStep) smallSettings.output) 80 24

theorem reached_opened (events : List Event) :
    (events.foldl Terminal.run opened).session.Reached smallSettings :=
  Terminal.reached_run (.start (Editor.ofSettings_eq_ok (by decide +kernel))) events

/-- A terminal after an X gate was put down, the cursor was moved away and back, and the angle
prompt was opened. -/
def prompted : Terminal smallSettings.wires smallSettings.depth :=
  [.char 'x', .right, .left, .char 'r'].map (fun code => Event.press { code }) |>.foldl Terminal.run
    (.start (start (.start smallSettings.rotationStep) smallSettings.output) 80 24)

theorem reached_prompted : prompted.session.Reached smallSettings := reached_opened _

theorem modes_coherent_prompted :
    prompted.session.Reached smallSettings ∧ prompted.session.focus = .anglePrompt ∧
      prompted.session.prompt = "pi" ∧
      prompted.session.editor.selected.kind.symbol ∈ [Symbol.x, .y, .z] ∧
      prompted.session.editor.cursor.row < 2 ∧
      (prompted.session.after (.press { code := .char '/' }) none).editor.circuit =
        prompted.session.editor.circuit := by
  have hfocus : prompted.session.focus = .anglePrompt := by decide +kernel
  have h := modes_coherent reached_prompted
  refine ⟨reached_prompted, hfocus, by decide +kernel, h.2.2.2.1 hfocus, h.1.1, ?_⟩
  by_contra hne
  obtain ⟨key, hpress, ⟨hcircuit, -⟩ | ⟨-, hcode⟩⟩ := (h.2.2.2.2 _ none).2 hne
  · rw [hfocus] at hcircuit
    cases hcircuit
  · cases hpress
    cases hcode

end Session

end QuantumCircuit

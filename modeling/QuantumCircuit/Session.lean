import QuantumCircuit.Angle.Writing
import QuantumCircuit.Editor
import QuantumCircuit.Palette
import QuantumCircuit.Session.Key

/-!
# Sessions

A session is an editor at a terminal: which panel has the focus, how far the program is scrolled,
what stands in the angle prompt, and whether the help is shown.  `Session.handle` says what an
event makes of it and what the session asks of its surroundings; whether a program could be saved
is told back by `Session.reportSave`.
-/

namespace QuantumCircuit

/-- The panel that keys go to. -/
inductive Focus
  | circuit
  | program
  | anglePrompt
  deriving DecidableEq, Repr

/-- A session over a circuit of `n` wires and `d` columns. -/
structure Session (n d : Nat) where
  editor : Editor n d
  /-- The file that a program is saved to. -/
  output : String
  focus : Focus
  /-- How many lines of the program are above the panel. -/
  scroll : UInt16
  /-- What is written in the angle prompt. -/
  prompt : String
  showsHelp : Bool
  deriving DecidableEq

/-- What a session asks for after an event. -/
inductive Request
  | nothing
  | quit
  /-- Write a text to a file and report how that went. -/
  | save (path text : String)
  deriving DecidableEq, Repr

namespace Session

variable {n d : Nat}

/-- A fresh session. -/
def start (editor : Editor n d) (output : String) : Session n d :=
  ⟨editor, output, .circuit, 0, "", false⟩

/-- The session with another text in the status line. -/
def withStatus (s : Session n d) (status : String) : Session n d :=
  { s with editor := { s.editor with status } }

/-- Carries out a command; a refusal shows in the status line. -/
def command (s : Session n d) (c : Command) : Session n d :=
  { s with editor := (s.editor.perform c).1 }

/-! ### Angles -/

/-- Turns the selected gate by some rotation steps, and shows the angle it has then. -/
def rotateSelected (s : Session n d) (steps : Binary64) : Session n d :=
  match s.editor.perform (.rotate s.editor.cursor (steps * s.editor.rotationStep)) with
  | (editor, .ok _) =>
    let shown := Angle.write editor.selected.theta
    { s with editor := { editor with status := s!"theta = {shown}" } }
  | (editor, .error _) => { s with editor }

/-- Opens the angle prompt on the angle of the selected gate, if it has one. -/
def openPrompt (s : Session n d) : Session n d :=
  if s.editor.selected.kind.isRotatable then
    { s with prompt := Angle.write s.editor.selected.theta, focus := .anglePrompt }
  else if s.editor.selectedKind == .empty then s.withStatus "Select a gate to set its angle"
  else s.withStatus (EditError.unrotatable s.editor.selectedKind).message

/-- The characters that can be written in the angle prompt. -/
def isPromptChar (c : Char) : Bool :=
  c.isDigit || ['.', '-', 'e', 'E', '+', 'p', 'P', 'i', 'I', '*', '/', ' '].contains c

/-- Writes a character in the angle prompt if it can stand in an angle. -/
def typeChar (s : Session n d) (c : Char) : Session n d :=
  if isPromptChar c then { s with prompt := s.prompt.push c } else s

/-- Takes the last character of the angle prompt away. -/
def eraseChar (s : Session n d) : Session n d :=
  { s with prompt := String.ofList s.prompt.toList.dropLast }

/-- Turns the selected gate to the angle in the prompt, and closes the prompt. -/
def submitPrompt (s : Session n d) : Session n d :=
  let (editor, outcome) := s.editor.perform (.rotateTo s.editor.cursor s.prompt)
  let written := Text.trimmed s.prompt
  let editor := match outcome with
    | .ok _ => { editor with status := s!"theta = {written}" }
    | .error _ => editor
  { s with editor, prompt := "", focus := .circuit }

/-- Closes the angle prompt. -/
def cancelPrompt (s : Session n d) : Session n d := { s with prompt := "", focus := .circuit }

/-! ### The program panel -/

/-- How many lines the program has, as far as sixteen bits can tell. -/
def lineCount (s : Session n d) : UInt16 := UInt16.ofNat s.editor.circuit.programLines.length

/-- Scrolls down by a line, not beyond the last line. -/
def scrollDown (s : Session n d) : Session n d :=
  let last := if s.lineCount = 0 then 0 else s.lineCount - 1
  { s with scroll := min (s.scroll + 1) last }

/-- Scrolls up by a line, not beyond the first line. -/
def scrollUp (s : Session n d) : Session n d :=
  { s with scroll := if s.scroll = 0 then 0 else s.scroll - 1 }

/-! ### Saving and starting over -/

/-- Shows how saving went: the fault, if there was one. -/
def reportSave (s : Session n d) (fault? : Option String) : Session n d :=
  s.withStatus (match fault? with
    | none => s!"Saved {s.output}"
    | some fault => s!"Save error: {fault}")

/-- Starts over with a blank circuit. -/
def reset (s : Session n d) : Session n d :=
  { s with editor := { s.editor.reset with status := "Circuit cleared" }, scroll := 0 }

/-! ### Keys -/

/-- What a key does in the circuit panel while no help is shown and control is not held. -/
def handleGateKey (s : Session n d) (key : Key) : Session n d × Request :=
  let cell := s.editor.cursor
  let move (direction : Direction) := { s with editor := s.editor.moveCursor direction }
  match key.code with
  | .char 'q' | .escape => (s, .quit)
  | .tab => ({ s with focus := .program }, .nothing)
  | .char '?' => ({ s with showsHelp := true }, .nothing)
  | .up => (if key.shift then s.command (.moveControl cell .up) else move .up, .nothing)
  | .down => (if key.shift then s.command (.moveControl cell .down) else move .down, .nothing)
  | .char '[' => (s.command (.moveControl cell .up), .nothing)
  | .char ']' => (s.command (.moveControl cell .down), .nothing)
  | .left => (move .left, .nothing)
  | .right => (move .right, .nothing)
  | .char 'c' => (s.command (.toggleControl cell), .nothing)
  | .char 'C' => (s.command (.addSecondControl cell), .nothing)
  | .char 'p' => (s.command (.toggleSwap cell), .nothing)
  | .char '+' | .char '=' => (s.rotateSelected 1, .nothing)
  | .char '-' => (s.rotateSelected (-1), .nothing)
  | .char 'r' => (s.openPrompt, .nothing)
  | .backspace | .delete => (s.command (.delete cell), .nothing)
  | .char c =>
    match entryOfKey? c with
    | some entry => (s.command (.toggleGate cell entry.kind), .nothing)
    | none => (s, .nothing)
  | _ => (s, .nothing)

/-- What a key does in the circuit panel.  The help takes every key and closes on two of them. -/
def handleCircuitKey (s : Session n d) (key : Key) : Session n d × Request :=
  if s.showsHelp then
    match key.code with
    | .escape | .char '?' => ({ s with showsHelp := false }, .nothing)
    | _ => (s, .nothing)
  else if key.control then
    match key.code with
    | .char 's' => (s, .save s.output s.editor.circuit.program)
    | .char 'r' => (s.reset, .nothing)
    | _ => (s, .nothing)
  else s.handleGateKey key

/-- What a key does in the program panel. -/
def handleProgramKey (s : Session n d) (key : Key) : Session n d × Request :=
  match key.code with
  | .char 'q' => (s, .quit)
  | .tab | .escape => ({ s with focus := .circuit }, .nothing)
  | .up => (s.scrollUp, .nothing)
  | .down => (s.scrollDown, .nothing)
  | _ => (s, .nothing)

/-- What a key does in the angle prompt. -/
def handlePromptKey (s : Session n d) (key : Key) : Session n d :=
  match key.code with
  | .escape => s.cancelPrompt
  | .backspace => s.eraseChar
  | .enter => s.submitPrompt
  | .char c => s.typeChar c
  | _ => s

/-- What a pressed key does: control and `c` quit everywhere, all else is up to the panel that
has the focus. -/
def handleKey (s : Session n d) (key : Key) : Session n d × Request :=
  if key.code = .char 'c' && key.control then (s, .quit)
  else match s.focus with
    | .circuit => s.handleCircuitKey key
    | .program => s.handleProgramKey key
    | .anglePrompt => (s.handlePromptKey key, .nothing)

/-- What an event does: only a pressed key does anything. -/
def handle (s : Session n d) : Event → Session n d × Request
  | .press key => s.handleKey key
  | _ => (s, .nothing)

end Session

end QuantumCircuit

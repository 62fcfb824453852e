import QuantumCircuit.CommandLine
import QuantumCircuit.Screen

/-!
# The program

Runs a session in a terminal.  The screen is drawn in colour before every event; events are read
by name, one on each line of the standard input (`Event.ofName?`).
-/

namespace QuantumCircuit

namespace Main

/-- A piece of a row with the control sequences for its style. -/
def coloured (piece : Style × String) : String :=
  let (style, text) := piece
  let colour := match style.colour with
    | some c =>
      let (r, g, b) := c.rgb
      s!"\x1b[38;2;{r};{g};{b}m"
    | none => ""
  let bold := if style.bold then "\x1b[1m" else ""
  colour ++ bold ++ text ++ "\x1b[0m"

/-- Clears the terminal and draws a session. -/
def draw {n d : Nat} (s : Session n d) (width height : Nat) : IO Unit := do
  IO.print "\x1b[2J\x1b[H"
  for row in Screen.draw s width height do
    IO.println (String.join ((Screen.styleRuns row).map coloured))
  (← IO.getStdout).flush

/-- Writes a program to a file; the fault, if there is one. -/
def save (path text : String) : IO (Option String) := do
  match ← (IO.FS.writeFile path text).toBaseIO with
  | .ok _ => return none
  | .error fault => return some (toString fault)

/-- Draws a session and carries out its events until it ends. -/
partial def loop {n d : Nat} (s : Session n d) (width height : Nat) : IO Unit := do
  draw s width height
  let line ← (← IO.getStdin).getLine
  if line.isEmpty then return
  let name := String.ofList (line.toList.filter (· != '\n'))
  match Event.ofName? name with
  | none => loop s width height
  | some (.resize width height) => loop s width height
  | some e =>
    match s.handle e with
    | (s, .nothing) => loop s width height
    | (_, .quit) => return
    | (s, .save path text) => loop (s.reportSave (← save path text)) width height

/-- A size given by a variable of the surroundings. -/
def size (variableName : String) (standard : Nat) : IO Nat := do
  return ((← IO.getEnv variableName).bind String.toNat?).getD standard

/-- Starts a session with the settings of a command line. -/
def run (options : CommandLine.Options) : IO UInt32 := do
  let settings := options.settings
  match Editor.ofSettings settings with
  | .ok editor =>
    loop (Session.start editor settings.output) (← size "COLUMNS" 100) (← size "LINES" 30)
    return 0
  | .error fault =>
    IO.eprintln fault.message
    return 1

end Main

end QuantumCircuit

open QuantumCircuit

/-- Reads the command line and runs the session it asks for. -/
def main (args : List String) : IO UInt32 := do
  let wires ← IO.getEnv CommandLine.wiresVariable
  let depth ← IO.getEnv CommandLine.depthVariable
  let lookup (name : String) : Option String :=
    if name == CommandLine.wiresVariable then wires
    else if name == CommandLine.depthVariable then depth
    else none
  match CommandLine.parse args lookup with
  | .ok options => Main.run options
  | .error .helpWanted =>
    IO.println CommandLine.UsageError.helpWanted.message
    return 0
  | .error .versionWanted =>
    IO.println CommandLine.UsageError.versionWanted.message
    return 0
  | .error fault =>
    IO.eprintln fault.message
    return 2

import QuantumCircuit.Angle.Reading
import QuantumCircuit.Circuit
import QuantumCircuit.Column.Gesture
import QuantumCircuit.Settings

/-!
# The editor

A circuit under edit, with a cursor and a status line.  Commands are data; `Editor.attempt` says
what a command makes of the circuit or why it is refused, and `Editor.perform` also keeps the
status line: empty after a success, the message of the fault after a refusal.
-/

namespace QuantumCircuit

/-- A change of the circuit that a user asks for. -/
inductive Command
  | place (cell : Cell) (kind : Kind) (angles : List Binary64)
  /-- A new gate with its angles as text. -/
  | placeText (cell : Cell) (kind : Kind) (angles : String)
  | toggleGate (cell : Cell) (kind : Kind)
  | toggleControl (cell : Cell)
  | addSecondControl (cell : Cell)
  | toggleSwap (cell : Cell)
  | moveControl (cell : Cell) (direction : Direction)
  | delete (cell : Cell)
  | rotate (cell : Cell) (delta : Binary64)
  /-- A rotation to an angle that is given as text. -/
  | rotateTo (cell : Cell) (angle : String)
  deriving DecidableEq

/-- An editor of a circuit of `n` wires and `d` columns. -/
structure Editor (n d : Nat) where
  circuit : Circuit n d
  cursor : Cell
  rotationStep : Binary64
  status : String
  deriving DecidableEq

namespace Editor

variable {n d : Nat}

/-- The editor of a blank circuit. -/
def start (rotationStep : Binary64) : Editor n d := ⟨.blank, ⟨0, 0⟩, rotationStep, ""⟩

/-- The editor that settings ask for. -/
def ofSettings (s : Settings) : Except SettingsFault (Editor s.wires s.depth) :=
  match s.fault? with
  | some f => .error f
  | none => .ok (start s.rotationStep)

/-! ### The cursor -/

/-- Moves the cursor by one cell, within the circuit. -/
def moveCursor (e : Editor n d) (direction : Direction) : Editor n d :=
  let cursor := match direction with
    | .up => { e.cursor with row := e.cursor.row - 1 }
    | .down => if e.cursor.row + 1 < n then { e.cursor with row := e.cursor.row + 1 } else e.cursor
    | .left => { e.cursor with col := e.cursor.col - 1 }
    | .right => if e.cursor.col + 1 < d then { e.cursor with col := e.cursor.col + 1 } else e.cursor
  { e with cursor }

/-- The cursor goes back, or it comes to a row and a column of the circuit. -/
theorem moveCursor_bounds (e : Editor n d) (direction : Direction) :
    ((e.moveCursor direction).cursor.row ≤ e.cursor.row ∨
      (e.moveCursor direction).cursor.row < n) ∧
    ((e.moveCursor direction).cursor.col ≤ e.cursor.col ∨
      (e.moveCursor direction).cursor.col < d) := by
  cases direction with
  | up => exact ⟨.inl (Nat.sub_le ..), .inl (Nat.le_refl _)⟩
  | left => exact ⟨.inl (Nat.le_refl _), .inl (Nat.sub_le ..)⟩
  | down =>
    by_cases hlt : e.cursor.row + 1 < n <;> simp [moveCursor, hlt]
  | right =>
    by_cases hlt : e.cursor.col + 1 < d <;> simp [moveCursor, hlt]

/-- The cursor is in the upper left corner again. -/
def resetCursor (e : Editor n d) : Editor n d := { e with cursor := ⟨0, 0⟩ }

/-- The node under the cursor. -/
def selected (e : Editor n d) : Node := e.circuit.node e.cursor

/-- The kind that the cell under the cursor shows. -/
def selectedKind (e : Editor n d) : Kind := e.circuit.reading e.cursor

/-! ### Commands -/

/-- A list of angles, its fault as a refusal. -/
def readAngles (text : String) : Except (EditError Cell) (List Binary64) :=
  (Angle.readList text).mapError .invalidAngle

/-- Exactly one angle. -/
def readAngle (text : String) : Except (EditError Cell) Binary64 := do
  match ← readAngles text with
  | [theta] => .ok theta
  | _ => .error (.invalidAngle (Text.trimmed text))

/-- A change of a column that tells no row. -/
def silently (change : Except (EditError Nat) (Column n)) :
    Except (EditError Nat) (Column n × Option Nat) := change.map (·, none)

/-- The circuit after a command, with the row that the command tells, or why the command is
refused. -/
def attempt (c : Circuit n d) : Command → Except (EditError Cell) (Circuit n d × Option Nat)
  | .place cell kind angles => do
    let g ← NewGate.of kind angles
    c.edit cell fun column => silently (column.placeNew cell.row g)
  | .placeText cell kind text => do
    let g ← NewGate.of kind (← readAngles text)
    c.edit cell fun column => silently (column.placeNew cell.row g)
  | .toggleGate cell kind => c.edit cell fun column => silently (column.toggleGate cell.row kind)
  | .toggleControl cell => c.edit cell fun column => silently (column.toggleControl cell.row)
  | .addSecondControl cell =>
    c.edit cell fun column => (column.addSecondControl cell.row).map fun (c, r) => (c, some r)
  | .toggleSwap cell => c.edit cell fun column => silently (column.toggleSwap cell.row)
  | .moveControl cell direction => c.apply cell.col (.moveControl cell.row direction)
  | .delete cell => c.apply cell.col (.delete cell.row)
  | .rotate cell delta => c.apply cell.col (.rotate cell.row delta)
  | .rotateTo cell text => do
    let theta ← readAngle text
    c.edit cell fun column => silently (column.rotateTo cell.row theta)

/-- Carries out a command: the status line is emptied, or it shows why nothing has changed. -/
def perform (e : Editor n d) (command : Command) :
    Editor n d × Except (EditError Cell) (Option Nat) :=
  match attempt e.circuit command with
  | .ok (circuit, row) => ({ e with circuit, status := "" }, .ok row)
  | .error fault => ({ e with status := fault.message }, .error fault)

/-- Starts over with a blank circuit. -/
def reset (e : Editor n d) : Editor n d := start e.rotationStep

end Editor

end QuantumCircuit

import QuantumCircuit.Proofs.Table.Basic

/-!
# Everything that works on a table

The edits of a table are one part of what happens to it.  Here is the rest, in the same terms: the
gestures of a user, the questions about cells, the texts that are made of all cells, and the steps
of a cursor.  These, too, name every cell that they read or write, and every sum of rows may count
past the largest number of a machine word (`Stop.overflow`).

`Operation` lists all that can be asked for, and `Desk.after` is what an operation leaves behind: a
refusal is told, and the table stays as the operation has left it.
-/

namespace QuantumCircuit

namespace InTable

variable {α : Type}

/-! ### Faults -/

/-- Goes on after a refusal.  Nothing goes on after another stop. -/
def afterRefusal (program : InTable α) (next : EditError Cell → InTable α) : InTable α :=
  tryCatch program fun
    | .refused fault => next fault
    | stop => throw stop

/-- A value that was computed without the table; its fault is a refusal. -/
def accept : Except (EditError Cell) α → InTable α
  | .ok a => pure a
  | .error fault => refuse fault

/-- A value that was computed for a column. -/
def acceptAt (col : Nat) (value : Except (EditError Nat) α) : InTable α :=
  accept (value.mapError (EditError.map (⟨·, col⟩)))

/-! ### Looking for a row -/

/-- The number of the row at a distance below a row. -/
def farBelow (row distance : Nat) : InTable Nat :=
  if row + distance < UInt64.size then pure (row + distance) else throw .overflow

/-- The rows above and below a row, the upper one first. -/
def neighbours (row : Nat) : InTable (List Nat) := do
  return (← nextRow? row .up).toList ++ (← nextRow? row .down).toList

/-- All other rows, nearest first, and the upper one of two. -/
def nearestRows (row : Nat) : InTable (List Nat) := do
  let n ← wires
  List.range' 1 (n - 1) |> collect fun distance => do
    let next ← farBelow row distance
    return (if distance ≤ row then [row - distance] else []) ++ (if next < n then [next] else [])

/-- Tries the rows until one succeeds. -/
def firstSuccess (attempt : Nat → InTable α) (fault : EditError Cell) : List Nat → InTable α
  | [] => refuse fault
  | row :: rest => afterRefusal (attempt row) fun fault => firstSuccess attempt fault rest

/-- Tries the rows until one is not occupied. -/
def firstUnoccupied (attempt : Nat → InTable α) (fault : EditError Cell) : List Nat → InTable α
  | [] => refuse fault
  | row :: rest => afterRefusal (attempt row) fun e =>
      if e.isOccupied then firstUnoccupied attempt fault rest else refuse e

/-! ### Gestures -/

/-- Puts a new gate into a cell that shows nothing. -/
def placeNew (cell : Cell) (g : NewGate) : InTable Unit := do
  check cell
  let shown ← reading cell
  if shown == .empty then
    let x ← acceptAt cell.col (Column.newNode g)
    place cell x
  else refuse (.occupied cell shown)

/-- Puts a gate into an empty cell, or deletes the gate in the cell if it is the same. -/
def toggleGate (cell : Cell) (kind : Kind) : InTable Unit := do
  check cell
  let shown ← reading cell
  if shown == .empty then
    let g ← acceptAt cell.col (NewGate.of kind [])
    placeNew cell g
  else
    let x ← read cell
    if x.kind != .empty && x.symbol == kind.symbol then delete cell
    else refuse (.occupied cell shown)

/-- Drops the controls of a gate, or attaches one in a neighbouring row. -/
def toggleControl (cell : Cell) : InTable Unit := do
  check cell
  let x ← read cell
  if x.controls.isEmpty then
    firstSuccess (attachControl cell.row · cell.col) (.blocked cell) (← neighbours cell.row)
  else detachControls cell.row cell.col

/-- Attaches a second control in the nearest row that is free, and tells the row. -/
def addSecondControl (cell : Cell) : InTable Nat := do
  check cell
  firstUnoccupied (fun row => (fun _ => row) <$> attachSecondControl cell.row row cell.col)
    (.blocked cell) (← nearestRows cell.row)

/-- Parts a swap from its partner, or makes the nearest free row its partner. -/
def toggleSwap (cell : Cell) : InTable Unit := do
  check cell
  let x ← read cell
  if x.partner.isSome then place cell { x with partner := none }
  else
    firstUnoccupied (attachPartner cell.row · cell.col) (.occupied cell .swap)
      (← nearestRows cell.row)

/-- Turns the gate in a cell to an angle, by the difference. -/
def rotateTo (cell : Cell) (theta : Binary64) : InTable Unit := do
  check cell
  rotate cell (theta - (← read cell).theta)

/-- A change that tells no row. -/
def silently (program : InTable Unit) : InTable (Option Nat) := (fun _ => none) <$> program

/-- Carries out a command, and tells the row that was linked if there is one to tell. -/
def attempt : Command → InTable (Option Nat)
  | .place cell kind angles => do
    let g ← accept (NewGate.of kind angles)
    silently (placeNew cell g)
  | .placeText cell kind text => do
    let angles ← accept (Editor.readAngles text)
    let g ← accept (NewGate.of kind angles)
    silently (placeNew cell g)
  | .toggleGate cell kind => silently (toggleGate cell kind)
  | .toggleControl cell => silently (toggleControl cell)
  | .addSecondControl cell => some <$> addSecondControl cell
  | .toggleSwap cell => silently (toggleSwap cell)
  | .moveControl cell direction => edit cell.col (.moveControl cell.row direction)
  | .delete cell => edit cell.col (.delete cell.row)
  | .rotate cell delta => edit cell.col (.rotate cell.row delta)
  | .rotateTo cell text => do
    let theta ← accept (Editor.readAngle text)
    silently (rotateTo cell theta)

/-- Empties the table. -/
def reset : InTable Unit := modify fun t => .blank t.wires t.depth

/-! ### Questions -/

/-- The node in a cell of the table. -/
def node (cell : Cell) : InTable Node := do
  check cell
  read cell

/-- The kind that a cell of the table shows. -/
def kind (cell : Cell) : InTable Kind := do
  check cell
  reading cell

/-- The row of the gate that uses a cell as a control input; none past the last column. -/
def gateOf (cell : Cell) : InTable (Option Nat) := do
  if (← get).depth ≤ cell.col then return none else controller? cell

/-- The nodes of one column, top to bottom; rows without the cell are left out. -/
def column (col : Nat) : InTable (List Node) := do
  let t ← get
  return (List.range t.wires).filterMap fun row => t.cell? ⟨row, col⟩

/-- The lines of all gates, columns from left to right and rows from top to bottom. -/
def gateLines : InTable (List String) := do
  let t ← get
  List.range t.depth |> collect fun col => List.range t.wires |> collect fun row => do
    return ((← read ⟨row, col⟩).instruction?.map Instruction.toText).toList

/-- The program of the table: the preamble and the lines of all gates. -/
def program : InTable String := do
  let lines := Circuit.preamble (← wires) ++ (← gateLines)
  return String.join (lines.map (· ++ "\n"))

/-- The kinds that the cells show, a line for each wire. -/
def describe : InTable String := do
  let t ← get
  let lines ← List.range t.wires |> collect fun row => do
    let kinds ← List.range t.depth |> collect fun col => do return [toString (← reading ⟨row, col⟩)]
    return [", ".intercalate kinds]
  return "\n".intercalate ("CircuitGrid:" :: lines)

/-! ### The cursor -/

/-- The cursor one cell further, within the table. -/
def moveCursor (cursor : Cell) : Direction → InTable Cell
  | .up => return { cursor with row := cursor.row - 1 }
  | .down => do
    let next ← below cursor.row
    return if next < (← get).wires then { cursor with row := next } else cursor
  | .left => return { cursor with col := cursor.col - 1 }
  | .right => do
    let next ← below cursor.col
    return if next < (← get).depth then { cursor with col := next } else cursor

/-- The kind under the cursor; nothing if the cursor is outside. -/
def selectedKind (cursor : Cell) : InTable Kind := afterRefusal (kind cursor) fun _ => pure .empty

end InTable

/-- What can be asked of a table with a cursor. -/
inductive Operation
  | command (command : Command)
  | edit (col : Nat) (edit : ColumnEdit)
  | reset
  | node (cell : Cell)
  | kind (cell : Cell)
  | gateOf (cell : Cell)
  | column (col : Nat)
  | program
  | describe
  | moveCursor (direction : Direction)
  | resetCursor
  | selectedKind
  deriving DecidableEq

/-- What an operation tells. -/
inductive Answer
  /-- The row that was linked, or found, if there is one. -/
  | row (row : Option Nat)
  | node (x : Node)
  | kind (kind : Kind)
  | nodes (nodes : List Node)
  | text (text : String)
  /-- The cell that the cursor has come to. -/
  | cursor (cell : Cell)
  deriving DecidableEq

/-- A table with a cursor. -/
structure Desk where
  table : Table
  cursor : Cell
  deriving DecidableEq

/-- The cell that a command looks for before anything else. -/
def Command.firstChecked? : Command → Option Cell
  | .toggleGate cell _ | .toggleControl cell | .addSecondControl cell | .toggleSwap cell
  | .moveControl cell _ | .delete cell | .rotate cell _ => some cell
  | .place .. | .placeText .. | .rotateTo .. => none

namespace Operation

/-- The program of an operation. -/
def steps (cursor : Cell) : Operation → InTable Answer
  | command c => .row <$> InTable.attempt c
  | edit col e => .row <$> InTable.edit col e
  | reset => (fun _ => .cursor ⟨0, 0⟩) <$> InTable.reset
  | node cell => .node <$> InTable.node cell
  | kind cell => .kind <$> InTable.kind cell
  | gateOf cell => .row <$> InTable.gateOf cell
  | column col => .nodes <$> InTable.column col
  | program => .text <$> InTable.program
  | describe => .text <$> InTable.describe
  | moveCursor direction => .cursor <$> InTable.moveCursor cursor direction
  | resetCursor => pure (.cursor ⟨0, 0⟩)
  | selectedKind => .kind <$> InTable.selectedKind cursor

/-- The cell that an operation looks for before anything else. -/
def firstChecked? : Operation → Option Cell
  | command c => c.firstChecked?
  | edit col e => some ⟨e.row, col⟩
  | node cell | kind cell => some cell
  | _ => none

/-- What an operation comes to on a desk. -/
def run (op : Operation) (desk : Desk) : EStateM.Result Stop Table Answer :=
  (op.steps desk.cursor).run desk.table

end Operation

namespace Desk

/-- The desk after an operation, whatever comes of it. -/
def after (desk : Desk) (op : Operation) : Desk :=
  match op.run desk with
  | .ok (.cursor cursor) table => ⟨table, cursor⟩
  | .ok _ table | .error _ table => ⟨table, desk.cursor⟩

/-- The desks that a history of operations leads to. -/
inductive Reached (wires depth : Nat) : Desk → Prop
  | start : Reached wires depth ⟨.blank wires depth, ⟨0, 0⟩⟩
  | after {desk : Desk} (h : Reached wires depth desk) (op : Operation) :
      Reached wires depth (desk.after op)

end Desk

end QuantumCircuit

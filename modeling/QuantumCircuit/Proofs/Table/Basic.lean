import QuantumCircuit.Proofs.InPlace

/-!
# Tables of cells

The edits of a circuit a third time, now as programs on one table that holds the cells of all
columns, row by row.  Nothing keeps such a program in its column: it names every cell that it reads
or writes, and takes the rows from the links of the nodes it finds.  It may stop for two reasons
that are no faults of an edit (`Stop`): it names a cell that is not there, or it counts past the
largest number of a machine word.

The programs follow those of `InPlace`.  What those take for one step is here done
cell by cell: the scans of a column, the checks of a placement, and the marks that are taken away.

* `InTable.Local` says that a program stays in its column; two programs that stay in different
  columns do not care about their order;
* `Circuit.table` is the table of a circuit, and `InTable.run_edit` says that its edits are those of
  the circuit.
-/

namespace QuantumCircuit

/-- A table of cells, with the numbers of its rows and columns. -/
structure Table where
  wires : Nat
  depth : Nat
  rows : List (List Node)
  deriving DecidableEq

/-- Why a program on a table stops before its end. -/
inductive Stop
  /-- The edit is refused. -/
  | refused (fault : EditError Cell)
  /-- A cell is used that the table does not have. -/
  | outside (cell : Cell)
  /-- A number does not fit into a machine word. -/
  | overflow
  deriving DecidableEq

namespace Table

/-- The table that holds nothing. -/
def blank (wires depth : Nat) : Table :=
  ⟨wires, depth, (List.range wires).map fun row => List.replicate depth (.blank row)⟩

/-- The node in a cell, if the table has the cell. -/
def cell? (t : Table) (cell : Cell) : Option Node := t.rows[cell.row]?.bind (·[cell.col]?)

/-- The numbers of cells in the rows. -/
def shape (t : Table) : List Nat := t.rows.map List.length

/-- The table with another node in a cell. -/
def set (t : Table) (cell : Cell) (x : Node) : Table :=
  { t with rows := t.rows.modify cell.row (·.set cell.col x) }

end Table

/-- A program that works on the cells of a table. -/
abbrev InTable := EStateM Stop Table

namespace InTable

/-! ### Cells and numbers -/

/-- Refuses the edit. -/
def refuse {α : Type} (fault : EditError Cell) : InTable α := throw (.refused fault)

/-- The number of rows. -/
def wires : InTable Nat := do return (← get).wires

/-- The fault of a cell that is not in the table. -/
def check (cell : Cell) : InTable Unit := do
  let t ← get
  if cell.row < t.wires && cell.col < t.depth then pure () else refuse (.outOfRange cell)

/-- The node in a cell; the program stops if there is no such cell. -/
def read (cell : Cell) : InTable Node := do
  match (← get).cell? cell with
  | some x => pure x
  | none => throw (.outside cell)

/-- Writes a node into a cell; the program stops if there is no such cell. -/
def store (cell : Cell) (x : Node) : InTable Unit := do
  let t ← get
  if (t.cell? cell).isSome then set (t.set cell x) else throw (.outside cell)

/-- The number of the row below. -/
def below (row : Nat) : InTable Nat :=
  if row + 1 < UInt64.size then pure (row + 1) else throw .overflow

/-- The number of the row above. -/
def above (row : Nat) : InTable Nat :=
  if row = 0 then throw .overflow else pure (row - 1)

/-- The rows strictly between two others, in either order. -/
def between (a b : Nat) : InTable (List Nat) := do
  let first ← below (min a b)
  return List.range' first (max a b - first)

/-! ### Scans of a column -/

/-- What a program finds for the members of a list, in order. -/
def collect {α : Type} (find : Nat → InTable (List α)) : List Nat → InTable (List α)
  | [] => pure []
  | a :: rest => do return (← find a) ++ (← collect find rest)

/-- The first row of a column whose node passes a test. -/
def findRow? (col : Nat) (test : Nat → Node → Bool) : InTable (Option Nat) := do
  (List.range (← wires)).findM? fun row => return test row (← read ⟨row, col⟩)

/-- The row of the gate that uses a cell as a control input. -/
def controller? (cell : Cell) : InTable (Option Nat) :=
  findRow? cell.col fun other x => other != cell.row && x.controls.contains cell.row

/-- The row of the swap that has a cell as its partner. -/
def partner? (cell : Cell) : InTable (Option Nat) :=
  findRow? cell.col fun other x => other != cell.row && x.partner == some cell.row

/-- The row of another node that is linked to a cell, outside the rows in `except`. -/
def owner? (cell : Cell) (except : List Nat) : InTable (Option Nat) :=
  findRow? cell.col fun other x =>
    other != cell.row && !except.contains other && x.links.contains cell.row

/-- The kind that a cell shows. -/
def reading (cell : Cell) : InTable Kind := do
  let x ← read cell
  if x.kind != .empty then return x.kind
  else if (← controller? cell).isSome then return .control
  else if (← partner? cell).isSome then return .swap
  else return .empty

/-- The cell can take a link: it shows nothing, or a passing wire. -/
def isFree (cell : Cell) : InTable Bool := do
  let kind ← reading cell
  return kind == .empty || kind == .trace

/-- Refuses the edit because something else has taken the cell. -/
def refuseOccupied {α : Type} (cell : Cell) : InTable α := do
  refuse (.occupied cell (← reading cell))

/-! ### Placements -/

/-- The row lies on the way from `row` to one of its links in `links`. -/
def isPassed (row : Nat) (links : List Nat) (r : Nat) : InTable Bool :=
  links.anyM fun link => return (← between row link).contains r

/-- A link of a node in another row of the column passes `r`. -/
def isSpanned (cell : Cell) (r : Nat) : InTable Bool := do
  (List.range (← wires)).anyM fun other => do
    if other = cell.row then return false
    else isPassed other (← read ⟨other, cell.col⟩).links r

/-- Takes away the marks that the node in a cell left in its column.  They are all looked up
before the first one goes. -/
def release (cell : Cell) (keep : List Nat) : InTable Unit := do
  let old ← read cell
  let marks ← old.controls |> collect fun r => do
    return if (← read ⟨r, cell.col⟩).kind == .control then [r] else []
  let traces ← old.links |> collect fun link => do
    (← between cell.row link) |> collect fun r => do
      if (← read ⟨r, cell.col⟩).kind != .trace then return []
      else if ← isPassed cell.row keep r then return []
      else return if ← isSpanned cell r then [] else [r]
  (marks ++ traces).forM fun r => store ⟨r, cell.col⟩ (.blank r)

/-- The faults of links that leave the column or repeat a row in `taken`, which grows by the links
that were looked at. -/
def checkLinks (col : Nat) (taken : List Nat) : List Nat → InTable Unit
  | [] => pure ()
  | link :: rest => do
    check ⟨link, col⟩
    if taken.contains link then refuseOccupied ⟨link, col⟩
    else checkLinks col (link :: taken) rest

/-- The faults of links to rows that another node is linked to, unless it is in `except`. -/
def checkOwners (col : Nat) (except : List Nat) (links : List Nat) : InTable Unit :=
  links.forM fun link => do
    if (← owner? ⟨link, col⟩ except).isSome then refuseOccupied ⟨link, col⟩ else pure ()

/-- The faults of a node that does not fit into a cell. -/
def checkPlace (cell : Cell) (x : Node) : InTable Unit := do
  check cell
  if !x.controlsAct then refuse (.uncontrollable x.kind)
  else
    checkLinks cell.col [cell.row] x.links
    checkOwners cell.col (x.controls ++ [cell.row]) x.links

/-- Puts a node into a cell if it fits, and control marks into its control rows. -/
def place (cell : Cell) (x : Node) : InTable Unit := do
  checkPlace cell x
  (x.controls ++ [cell.row]).forM fun r =>
    release ⟨r, cell.col⟩ (if r = cell.row then x.links else [])
  store cell (x.atRow cell.row)
  x.controls.forM fun r => store ⟨r, cell.col⟩ (.controlMark r)

/-- Empties a cell, with the marks that its node has left. -/
def clear (cell : Cell) : InTable Unit := place cell (.blank cell.row)

/-! ### Links -/

/-- Puts a gate back with a new link to a free row, and then empties that row. -/
def relink (gate row col : Nat) (x : Node) : InTable Unit := do
  if row = gate || !(← isFree ⟨row, col⟩) then refuseOccupied ⟨row, col⟩
  else
    place ⟨gate, col⟩ x
    clear ⟨row, col⟩

/-- Makes a free row the first control of a gate. -/
def attachControl (gate row col : Nat) : InTable Unit := do
  check ⟨gate, col⟩
  check ⟨row, col⟩
  let old ← read ⟨gate, col⟩
  let x := { old with control := some row }
  if x.kind.isControlled then relink gate row col x else refuse (.uncontrollable old.kind)

/-- Makes a free row the second control of a gate. -/
def attachSecondControl (gate row col : Nat) : InTable Unit := do
  check ⟨gate, col⟩
  check ⟨row, col⟩
  let old ← read ⟨gate, col⟩
  let x := { old with secondControl := some row }
  if x.kind == .toffoli then relink gate row col x else refuse (.uncontrollable old.kind)

/-- Makes a free row the partner of a swap. -/
def attachPartner (gate row col : Nat) : InTable Unit := do
  check ⟨gate, col⟩
  check ⟨row, col⟩
  let old ← read ⟨gate, col⟩
  if old.symbol == .swap then relink gate row col { old with partner := some row }
  else refuse (.unswappable old.kind)

/-- Drops all controls of a gate. -/
def detachControls (gate col : Nat) : InTable Unit := do
  check ⟨gate, col⟩
  let old ← read ⟨gate, col⟩
  if old.controls.isEmpty then pure ()
  else place ⟨gate, col⟩ { old with control := none, secondControl := none }

/-- The row next to a row in a direction. -/
def nextRow? (row : Nat) : Direction → InTable (Option Nat)
  | .up => return if row = 0 then none else some (row - 1)
  | .down => do
    let next ← below row
    return if next < (← wires) then some next else none
  | .left | .right => return none

/-- The row next to a control in a direction, beyond the gate if the gate is next. -/
def controlStep? (gate control : Nat) (d : Direction) : InTable (Option Nat) := do
  match ← nextRow? control d with
  | some row => if row = gate then nextRow? row d else return some row
  | none => return none

/-- The row that a control leaves behind between itself and its gate. -/
def gap? (gate row : Nat) : Direction → InTable (Option Nat)
  | .up => do
    if row < gate then
      let gap ← below row
      return if gap != gate then some gap else none
    else return none
  | .down => do
    if gate < row then
      let gap ← above row
      return if gap != gate then some gap else none
    else return none
  | .left | .right => return none

/-- Marks an empty cell as a passing wire. -/
def fillGap (cell : Cell) : InTable Unit := do
  if (← reading cell) == .empty then place cell (.traceMark cell.row) else pure ()

/-- Moves the only control of a gate one row further, and tells its new row. -/
def moveControl (gate col : Nat) (d : Direction) : InTable Nat := do
  check ⟨gate, col⟩
  let old ← read ⟨gate, col⟩
  match old.control, old.secondControl with
  | some control, none =>
    match ← controlStep? gate control d with
    | some row =>
      if ← isFree ⟨row, col⟩ then
        place ⟨gate, col⟩ { old with control := some row }
        clear ⟨row, col⟩
        match ← gap? gate row d with
        | some gap => fillGap ⟨gap, col⟩
        | none => pure ()
        return row
      else refuse (.blocked ⟨gate, col⟩)
    | none => refuse (.blocked ⟨gate, col⟩)
  | _, _ => refuse (.blocked ⟨gate, col⟩)

/-! ### Removal and rotation -/

/-- Deletes a gate with everything up to its other end. -/
def deleteGate (gate col : Nat) : InTable Unit := do
  let far := Column.farEnd (← read ⟨gate, col⟩) gate
  (List.range' (min gate far) (Column.distance gate far + 1)).forM fun row => clear ⟨row, col⟩

/-- Deletes what a cell shows. -/
def delete (cell : Cell) : InTable Unit := do
  check cell
  let shown ← reading cell
  let fault := EditError.notRemovable cell shown
  match shown with
  | .plain .empty => pure ()
  | .plain .control =>
    match ← controller? cell with
    | some gate => deleteGate gate cell.col
    | none => refuse fault
  | .plain .trace => refuse fault
  | kind =>
    if kind == .swap && (← read cell).kind == .empty then refuse fault
    else deleteGate cell.row cell.col

/-- Turns the gate in a cell by a further angle, within one full turn. -/
def rotate (cell : Cell) (delta : Binary64) : InTable Unit := do
  check cell
  let x ← read cell
  let shown ← reading cell
  let turned := { x with theta := (x.theta + delta).wrap .turn }
  if x.kind.isRotatable && (turned.controls.isEmpty || turned.kind.isControlled) then
    place cell turned
  else refuse (.unrotatable shown)

/-- Performs an edit in a column of the table. -/
def edit (col : Nat) : ColumnEdit → InTable (Option Nat)
  | .place row x => (fun _ => none) <$> place ⟨row, col⟩ x
  | .attachControl gate row => (fun _ => some row) <$> attachControl gate row col
  | .attachSecondControl gate row => (fun _ => some row) <$> attachSecondControl gate row col
  | .detachControls gate => (fun _ => none) <$> detachControls gate col
  | .moveControl gate d => some <$> moveControl gate col d
  | .attachPartner gate row => (fun _ => some row) <$> attachPartner gate row col
  | .delete row => (fun _ => none) <$> delete ⟨row, col⟩
  | .rotate row delta => (fun _ => none) <$> rotate ⟨row, col⟩ delta

end InTable

namespace Table

open InTable

/-- The table after an edit, whatever comes of it. -/
def after (t : Table) (col : Nat) (e : ColumnEdit) : Table :=
  (InPlace.outcome ((edit col e).run t)).1

/-- What an edit of a table comes to. -/
def result (t : Table) (col : Nat) (e : ColumnEdit) : Except Stop (Option Nat) :=
  (InPlace.outcome ((edit col e).run t)).2

/-- The tables that a history of edits leads to.  Starting over leads to the first of them. -/
inductive Written (wires depth : Nat) : Table → Prop
  | blank : Written wires depth (blank wires depth)
  | after {t : Table} (h : Written wires depth t) (col : Nat) (e : ColumnEdit) :
      Written wires depth (t.after col e)

end Table

end QuantumCircuit

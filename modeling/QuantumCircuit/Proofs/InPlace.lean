import QuantumCircuit.Proofs.History

/-!
# Edits in place

The edits of a column and the commands of an editor once more, as programs that write into the
circuit as they go.  What has been written stays when a later step of the program fails
(`EStateM`): a gate is put back before the row it is linked to is emptied, a range is emptied row
by row, and a gesture tries one row after the other.

`Circuit.Written` are the circuits that come about in this way, failures included.  That nothing
is ever left half done is `Circuit.refused_unchanged` in the next module.
-/

namespace QuantumCircuit

/-- A program that works on a column in place. -/
abbrev InPlace (n : Nat) := EStateM (EditError Nat) (Column n)

instance decidableEqExcept {ε α : Type} [DecidableEq ε] [DecidableEq α] :
    DecidableEq (Except ε α)
  | .ok a, .ok b => decidable_of_iff (a = b) ⟨congrArg Except.ok, Except.ok.inj⟩
  | .error e, .error f => decidable_of_iff (e = f) ⟨congrArg Except.error, Except.error.inj⟩
  | .ok _, .error _ => isFalse nofun
  | .error _, .ok _ => isFalse nofun

namespace InPlace

variable {n d : Nat}

/-! ### Edits of a column -/

/-- Refuses a row outside the column. -/
def checkRow (row : Nat) : InPlace n Unit :=
  if row < n then pure () else throw (.outOfRange row)

/-- Puts a node into a row if it fits, one write after the other. -/
def place (row : Nat) (x : Node) : InPlace n Unit := do
  match (← get).placeFault? row x with
  | some fault => throw fault
  | none =>
    (x.controls ++ [row]).forM fun r => modify (·.release r (if r = row then x.links else []))
    modify (·.write row x)

/-- Empties a row, with the marks that its node has left. -/
def clear (row : Nat) : InPlace n Unit := place row (.blank row)

/-- Puts a gate back with a new link to a free row, and then empties that row. -/
def relink (gate row : Nat) (x : Node) : InPlace n Unit := do
  let c ← get
  if row = gate || !c.isFree row then throw (c.occupied row)
  else
    place gate x
    clear row

/-- Makes a free row the first control of a gate. -/
def attachControl (gate row : Nat) : InPlace n Unit := do
  checkRow gate
  checkRow row
  let c ← get
  let x := { c.node gate with control := some row }
  if x.kind.isControlled then relink gate row x
  else throw (.uncontrollable (c.node gate).kind)

/-- Makes a free row the second control of a gate. -/
def attachSecondControl (gate row : Nat) : InPlace n Unit := do
  checkRow gate
  checkRow row
  let c ← get
  let x := { c.node gate with secondControl := some row }
  if x.kind == .toffoli then relink gate row x
  else throw (.uncontrollable (c.node gate).kind)

/-- Makes a free row the partner of a swap. -/
def attachPartner (gate row : Nat) : InPlace n Unit := do
  checkRow gate
  checkRow row
  let c ← get
  if (c.node gate).symbol == .swap then relink gate row { c.node gate with partner := some row }
  else throw (.unswappable (c.node gate).kind)

/-- Drops all controls of a gate. -/
def detachControls (gate : Nat) : InPlace n Unit := do
  checkRow gate
  let c ← get
  if (c.node gate).controls.isEmpty then pure ()
  else place gate { c.node gate with control := none, secondControl := none }

/-- Marks an empty row as a passing wire. -/
def fillGap (row : Nat) : InPlace n Unit := do
  if (← get).reading row == .empty then place row (.traceMark row) else pure ()

/-- Moves the only control of a gate one row further.  The row that it comes to is emptied after the
gate has been put back, and the gap behind it is filled last. -/
def moveControl (gate : Nat) (d : Direction) : InPlace n Nat := do
  checkRow gate
  let c ← get
  match (c.node gate).control, (c.node gate).secondControl with
  | some control, none =>
    match Column.controlStep? n gate control d with
    | some row =>
      if c.isFree row then
        place gate { c.node gate with control := some row }
        clear row
        (Column.gap? gate row d).elim (pure ()) fillGap
        return row
      else throw (.blocked gate)
    | none => throw (.blocked gate)
  | _, _ => throw (.blocked gate)

/-- Deletes the gate in a row with everything up to its other end, one row after the other. -/
def deleteGate (row : Nat) : InPlace n Unit := do
  let far := Column.farEnd ((← get).node row) row
  (List.range' (min row far) (Column.distance row far + 1)).forM clear

/-- Deletes what a row shows. -/
def delete (row : Nat) : InPlace n Unit := do
  checkRow row
  let c ← get
  let fault := EditError.notRemovable row (c.reading row)
  match c.reading row with
  | .plain .empty => pure ()
  | .plain .control =>
    match c.controller? row with
    | some gate => deleteGate gate
    | none => throw fault
  | .plain .trace => throw fault
  | kind =>
    if kind == .swap && (c.node row).kind == .empty then throw fault
    else deleteGate row

/-- Turns the gate in a row by a further angle, within one full turn. -/
def rotate (row : Nat) (delta : Binary64) : InPlace n Unit := do
  checkRow row
  let c ← get
  let x := c.node row
  let turned := { x with theta := (x.theta + delta).wrap .turn }
  if x.kind.isRotatable && (turned.controls.isEmpty || turned.kind.isControlled) then
    place row turned
  else throw (.unrotatable (c.reading row))

/-- Performs an edit of the column. -/
def apply : ColumnEdit → InPlace n (Option Nat)
  | .place row x => (fun _ => none) <$> place row x
  | .attachControl gate row => (fun _ => some row) <$> attachControl gate row
  | .attachSecondControl gate row => (fun _ => some row) <$> attachSecondControl gate row
  | .detachControls gate => (fun _ => none) <$> detachControls gate
  | .moveControl gate d => some <$> moveControl gate d
  | .attachPartner gate row => (fun _ => some row) <$> attachPartner gate row
  | .delete row => (fun _ => none) <$> delete row
  | .rotate row delta => (fun _ => none) <$> rotate row delta

/-! ### Gestures -/

/-- Tries the rows until one succeeds.  The next row is tried on what the last attempt has left
behind. -/
def firstSuccess {α : Type} (attempt : Nat → InPlace n α) (fault : EditError Nat) :
    List Nat → InPlace n α
  | [] => throw fault
  | row :: rest => tryCatch (attempt row) fun e => firstSuccess attempt e rest

/-- Tries the rows until one is not occupied. -/
def firstUnoccupied {α : Type} (attempt : Nat → InPlace n α) (fault : EditError Nat) :
    List Nat → InPlace n α
  | [] => throw fault
  | row :: rest => tryCatch (attempt row) fun e =>
      if e.isOccupied then firstUnoccupied attempt fault rest else throw e

/-- Puts a new gate into a row that shows nothing. -/
def placeNew (row : Nat) (g : NewGate) : InPlace n Unit := do
  checkRow row
  let c ← get
  if c.reading row == .empty then
    let x ← ofExcept (Column.newNode g)
    place row x
  else throw (c.occupied row)

/-- Puts a gate into an empty row, or deletes the gate in the row if it is the same. -/
def toggleGate (row : Nat) (kind : Kind) : InPlace n Unit := do
  checkRow row
  let c ← get
  if c.reading row == .empty then
    let g ← ofExcept (NewGate.of kind [])
    placeNew row g
  else if (c.node row).kind != .empty && (c.node row).symbol == kind.symbol then delete row
  else throw (c.occupied row)

/-- Turns the gate in a row to an angle, by the difference. -/
def rotateTo (row : Nat) (theta : Binary64) : InPlace n Unit := do
  rotate row (theta - ((← get).node row).theta)

/-- Drops the controls of a gate, or attaches one in a neighbouring row. -/
def toggleControl (row : Nat) : InPlace n Unit := do
  checkRow row
  let c ← get
  if (c.node row).controls.isEmpty then
    firstSuccess (attachControl row) (.blocked row) (c.neighbours row)
  else detachControls row

/-- Attaches a second control in the nearest row that is free, and tells the row. -/
def addSecondControl (row : Nat) : InPlace n Nat := do
  checkRow row
  let c ← get
  firstUnoccupied (fun r => (fun _ => r) <$> attachSecondControl row r) (.blocked row)
    (c.nearestRows row)

/-- Parts a swap from its partner, or makes the nearest free row its partner. -/
def toggleSwap (row : Nat) : InPlace n Unit := do
  checkRow row
  let c ← get
  if (c.node row).partner.isSome then place row { c.node row with partner := none }
  else firstUnoccupied (attachPartner row) (.occupied row .swap) (c.nearestRows row)

/-! ### Circuits and editors -/

/-- Runs a program on the column of a cell.  The column is stored back whatever comes of it. -/
def onColumn {α : Type} (cell : Cell) (program : InPlace n α) :
    EStateM (EditError Cell) (Circuit n d) α := fun c =>
  if h : cell.col < d then
    match program.run c.columns[cell.col] with
    | .ok a column => .ok a ⟨c.columns.set cell.col column⟩
    | .error e column => .error (e.map (⟨·, cell.col⟩)) ⟨c.columns.set cell.col column⟩
  else .error (.outOfRange cell) c

/-- Performs an edit of one column of a circuit. -/
def edit (col : Nat) (e : ColumnEdit) : EStateM (EditError Cell) (Circuit n d) (Option Nat) :=
  onColumn ⟨e.row, col⟩ (apply e)

/-- A change of a column that tells no row. -/
def silently (program : InPlace n Unit) : InPlace n (Option Nat) := (fun _ => none) <$> program

/-- Carries out a command on a circuit. -/
def attempt : Command → EStateM (EditError Cell) (Circuit n d) (Option Nat)
  | .place cell kind angles => do
    let g ← ofExcept (NewGate.of kind angles)
    onColumn cell (silently (placeNew cell.row g))
  | .placeText cell kind text => do
    let angles ← ofExcept (Editor.readAngles text)
    let g ← ofExcept (NewGate.of kind angles)
    onColumn cell (silently (placeNew cell.row g))
  | .toggleGate cell kind => onColumn cell (silently (toggleGate cell.row kind))
  | .toggleControl cell => onColumn cell (silently (toggleControl cell.row))
  | .addSecondControl cell => onColumn cell (some <$> addSecondControl cell.row)
  | .toggleSwap cell => onColumn cell (silently (toggleSwap cell.row))
  | .moveControl cell direction => edit cell.col (.moveControl cell.row direction)
  | .delete cell => edit cell.col (.delete cell.row)
  | .rotate cell delta => edit cell.col (.rotate cell.row delta)
  | .rotateTo cell text => do
    let theta ← ofExcept (Editor.readAngle text)
    onColumn cell (silently (rotateTo cell.row theta))

/-- Carries out a command in an editor, and writes down what has come of it. -/
def perform (command : Command) : EStateM (EditError Cell) (Editor n d) (Option Nat) := fun e =>
  match (attempt command).run e.circuit with
  | .ok row circuit => .ok row { e with circuit, status := "" }
  | .error fault circuit => .error fault { e with circuit, status := fault.message }

/-- What a run leaves behind, and what it returns. -/
def outcome {ε σ α : Type} : EStateM.Result ε σ α → σ × Except ε α
  | .ok a s => (s, .ok a)
  | .error e s => (s, .error e)

end InPlace

namespace Circuit

variable {n d : Nat}

/-- What an action in place leaves behind, whether it succeeds or not. -/
def overwritten (c : Circuit n d) : Action → Circuit n d
  | .command command => (InPlace.outcome ((InPlace.attempt command).run c)).1
  | .edit col e => (InPlace.outcome ((InPlace.edit col e).run c)).1
  | .reset => .blank

/-- The circuits that some history of actions in place leaves behind. -/
inductive Written : Circuit n d → Prop
  | blank : Written .blank
  | after {c : Circuit n d} (h : Written c) (a : Action) : Written (c.overwritten a)

end Circuit

end QuantumCircuit

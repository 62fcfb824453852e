import QuantumCircuit.Column.Placement
import QuantumCircuit.Direction

/-!
# Linking rows

A gate is linked to other rows of its column: up to two controls, and the partner of a swap.
Each operation puts the gate back with its links changed and then empties the row that was
linked, whose part in the column is from then on read off the gate.
-/

namespace QuantumCircuit

namespace Column

variable {n : Nat}

/-- Puts a gate back with a new link to a free row, and empties that row. -/
def relink (c : Column n) (gate row : Nat) (x : Node) : Except (EditError Nat) (Column n) :=
  if row = gate || !c.isFree row then .error (c.occupied row)
  else (c.place gate x).map (·.clear row)

/-- Makes a free row the first control of a gate. -/
def attachControl (c : Column n) (gate row : Nat) : Except (EditError Nat) (Column n) := do
  c.checkRow gate
  c.checkRow row
  let x := { c.node gate with control := some row }
  if x.kind.isControlled then c.relink gate row x
  else .error (.uncontrollable (c.node gate).kind)

/-- Makes a free row the second control of a controlled X. -/
def attachSecondControl (c : Column n) (gate row : Nat) :
    Except (EditError Nat) (Column n) := do
  c.checkRow gate
  c.checkRow row
  let x := { c.node gate with secondControl := some row }
  if x.kind == .toffoli then c.relink gate row x
  else .error (.uncontrollable (c.node gate).kind)

/-- Makes a free row the partner of a swap. -/
def attachPartner (c : Column n) (gate row : Nat) : Except (EditError Nat) (Column n) := do
  c.checkRow gate
  c.checkRow row
  if (c.node gate).symbol == .swap then
    c.relink gate row { c.node gate with partner := some row }
  else .error (.unswappable (c.node gate).kind)

/-- Drops every control of a gate. -/
def detachControls (c : Column n) (gate : Nat) : Except (EditError Nat) (Column n) := do
  c.checkRow gate
  if (c.node gate).controls.isEmpty then .ok c
  else c.place gate { c.node gate with control := none, secondControl := none }

/-! ### Moving a control -/

/-- The row next to a control in a direction, beyond the gate if the gate is next. -/
def controlStep? (n gate control : Nat) (d : Direction) : Option Nat :=
  (d.nextRow? n control).bind fun row =>
    if row = gate then d.nextRow? n row else some row

/-- The row that a control leaves behind between itself and its gate when it moves away from
the gate. -/
def gap? (gate row : Nat) : Direction → Option Nat
  | .up => if row < gate && row + 1 != gate then some (row + 1) else none
  | .down => if gate < row && row - 1 != gate then some (row - 1) else none
  | .left | .right => none

/-- Marks an empty row as a passing wire. -/
def fillGap (c : Column n) (row : Nat) : Column n :=
  if c.reading row == .empty then c.overwrite row (.traceMark row) else c

/-- Moves the only control of a gate one row further; the result comes with its new row. -/
def moveControl (c : Column n) (gate : Nat) (d : Direction) :
    Except (EditError Nat) (Column n × Nat) := do
  c.checkRow gate
  match (c.node gate).control, (c.node gate).secondControl with
  | some control, none =>
    match controlStep? n gate control d with
    | some row =>
      if c.isFree row then
        let moved ← c.place gate { c.node gate with control := some row }
        let moved := moved.clear row
        return ((gap? gate row d).elim moved moved.fillGap, row)
      else .error (.blocked gate)
    | none => .error (.blocked gate)
  | _, _ => .error (.blocked gate)

end Column

end QuantumCircuit

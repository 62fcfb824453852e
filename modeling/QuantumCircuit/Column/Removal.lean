import QuantumCircuit.Column.Placement

/-!
# Removing and rotating gates

Deleting a gate empties every row from the gate to the far end of its links.  A control input
deletes the gate it belongs to; a swap partner or a passing wire cannot be deleted by itself.
-/

namespace QuantumCircuit

namespace Column

variable {n : Nat}

/-- How many rows lie between two rows, one of them included. -/
def distance (a b : Nat) : Nat := max a b - min a b

/-- Of two rows the one farther from `row`; of two equally far, the one further down. -/
def farther (row a b : Nat) : Nat :=
  if distance row a < distance row b || (distance row a == distance row b && a < b) then b else a

/-- The row at the other end of a gate in `row`: its farther control, else its partner, else
`row` itself. -/
def farEnd (x : Node) (row : Nat) : Nat :=
  match x.control, x.secondControl with
  | some a, some b => farther row a b
  | some a, none | none, some a => a
  | none, none => x.partner.getD row

/-- Empties a row and the `k` rows after it. -/
def clearRows (c : Column n) (first k : Nat) : Column n :=
  (List.range' first (k + 1)).foldl clear c

/-- Deletes the gate in a row with everything up to its other end. -/
def deleteGate (c : Column n) (row : Nat) : Column n :=
  let far := farEnd (c.node row) row
  c.clearRows (min row far) (distance row far)

/-- Deletes what a row shows. -/
def delete (c : Column n) (row : Nat) : Except (EditError Nat) (Column n) := do
  c.checkRow row
  let fault := EditError.notRemovable row (c.reading row)
  match c.reading row with
  | .plain .empty => .ok c
  | .plain .control =>
    match c.controller? row with
    | some gate => .ok (c.deleteGate gate)
    | none => .error fault
  | .plain .trace => .error fault
  | kind =>
    if kind == .swap && (c.node row).kind == .empty then .error fault
    else .ok (c.deleteGate row)

/-- Turns the gate in a row by a further angle, within one full turn. -/
def rotate (c : Column n) (row : Nat) (delta : Binary64) :
    Except (EditError Nat) (Column n) := do
  c.checkRow row
  let x := c.node row
  let turned := { x with theta := (x.theta + delta).wrap .turn }
  if x.kind.isRotatable && (turned.controls.isEmpty || turned.kind.isControlled) then
    c.place row turned
  else .error (.unrotatable (c.reading row))

end Column

end QuantumCircuit

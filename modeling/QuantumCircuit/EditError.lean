import QuantumCircuit.Kind

/-!
# Refused edits

Every reason for which an edit is refused, with the text that is shown for it.  The place of a
fault is a row while one column is looked at and a `Cell` in a whole circuit; `EditError.map`
goes from the one to the other.
-/

namespace QuantumCircuit

/-- A place in a circuit. -/
structure Cell where
  row : Nat
  col : Nat
  deriving DecidableEq, Repr

/-- Why an edit is refused. -/
inductive EditError (Place : Type)
  | outOfRange (place : Place)
  /-- The place cannot take a gate, a control or a swap partner. -/
  | occupied (place : Place) (kind : Kind)
  /-- The control of the gate at the place cannot go there. -/
  | blocked (gate : Place)
  /-- The mark at the place goes only together with others. -/
  | notRemovable (place : Place) (kind : Kind)
  | unrotatable (kind : Kind)
  | uncontrollable (kind : Kind)
  | unswappable (kind : Kind)
  | unplaceable (kind : Kind)
  /-- A text or list of angles that cannot be used. -/
  | invalidAngle (text : String)
  deriving DecidableEq, Repr

namespace EditError

/-- The same fault with its place seen in another way. -/
def map {α β : Type} (f : α → β) : EditError α → EditError β
  | outOfRange p => outOfRange (f p)
  | occupied p k => occupied (f p) k
  | blocked p => blocked (f p)
  | notRemovable p k => notRemovable (f p) k
  | unrotatable k => unrotatable k
  | uncontrollable k => uncontrollable k
  | unswappable k => unswappable k
  | unplaceable k => unplaceable k
  | invalidAngle t => invalidAngle t

/-- The place is taken by something else, so another place may do. -/
def isOccupied {α : Type} : EditError α → Bool
  | occupied .. => true
  | _ => false

/-- A cell in messages. -/
def placeText (c : Cell) : String := s!"q[{c.row}], column {c.col}"

/-- The text that is shown for a refused edit. -/
def message : EditError Cell → String
  | outOfRange c => s!"cell {placeText c} is outside the grid"
  | occupied c k => s!"cell {placeText c} is occupied by {k}"
  | blocked c => s!"control of the gate on {placeText c} cannot move there"
  | notRemovable c k => s!"{k} on {placeText c} cannot be removed on its own"
  | unrotatable k => s!"{k} cannot be rotated"
  | uncontrollable k => s!"{k} cannot be controlled"
  | unswappable k => s!"{k} cannot take a swap partner"
  | unplaceable k => s!"{k} cannot be placed directly"
  | invalidAngle t =>
    s!"invalid parameter '{t}': use numbers or pi expressions (e.g. pi/2, 3*pi/4)"

end EditError

end QuantumCircuit

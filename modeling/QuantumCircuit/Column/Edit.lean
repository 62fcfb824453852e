import QuantumCircuit.Column.Links
import QuantumCircuit.Column.Removal

/-!
# Edits of a column

The edits that a column knows, as data, so that a history of edits is a list.  `Column.apply`
performs one; some edits also tell a row, the one that was linked.
-/

namespace QuantumCircuit

/-- One edit of a column. -/
inductive ColumnEdit
  | place (row : Nat) (node : Node)
  | attachControl (gate row : Nat)
  | attachSecondControl (gate row : Nat)
  | detachControls (gate : Nat)
  | moveControl (gate : Nat) (direction : Direction)
  | attachPartner (gate row : Nat)
  | delete (row : Nat)
  | rotate (row : Nat) (delta : Binary64)
  deriving DecidableEq

/-- The row that an edit is about. -/
def ColumnEdit.row : ColumnEdit → Nat
  | place row _ | delete row | rotate row _ => row
  | attachControl gate _ | attachSecondControl gate _ | detachControls gate
  | moveControl gate _ | attachPartner gate _ => gate

/-- Performs an edit, and tells the row that was linked if there is one to tell. -/
def Column.apply {n : Nat} (c : Column n) : ColumnEdit →
    Except (EditError Nat) (Column n × Option Nat)
  | .place row x => (c.place row x).map (·, none)
  | .attachControl gate row => (c.attachControl gate row).map (·, some row)
  | .attachSecondControl gate row => (c.attachSecondControl gate row).map (·, some row)
  | .detachControls gate => (c.detachControls gate).map (·, none)
  | .moveControl gate d => (c.moveControl gate d).map fun (c, row) => (c, some row)
  | .attachPartner gate row => (c.attachPartner gate row).map (·, some row)
  | .delete row => (c.delete row).map (·, none)
  | .rotate row delta => (c.rotate row delta).map (·, none)

end QuantumCircuit

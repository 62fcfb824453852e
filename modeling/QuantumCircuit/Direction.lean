/-!
# Directions

The four ways to go from one cell of a circuit to the next.
-/

namespace QuantumCircuit

/-- A way to a neighbouring cell. -/
inductive Direction
  | up
  | down
  | left
  | right
  deriving DecidableEq, Repr

namespace Direction

/-- The row next to `row` among `n` rows; there is none to the left or right. -/
def nextRow? (n row : Nat) : Direction → Option Nat
  | up => if row = 0 then none else some (row - 1)
  | down => if row + 1 < n then some (row + 1) else none
  | left | right => none

variable {n row next : Nat} {d : Direction}

theorem nextRow?_lt (hrow : row < n) (h : d.nextRow? n row = some next) : next < n := by
  cases d <;> simp only [nextRow?] at h <;> grind

theorem nextRow?_up_iff : up.nextRow? n row = some next ↔ next + 1 = row := by
  simp only [nextRow?]
  split <;> grind

theorem nextRow?_down_iff : down.nextRow? n row = some next ↔ row + 1 = next ∧ next < n := by
  simp only [nextRow?]
  split <;> grind

end Direction

end QuantumCircuit

import QuantumCircuit.EditError
import QuantumCircuit.Node

/-!
# Columns

A column of `n` wires holds one node per row.  Everything that a circuit does happens inside one
column, so the rules of the circuit are rules about columns.  A column is looked at through
`Column.node`, which shows a blank cell past the last wire; `Column.ext_node` says that nothing
else counts.

The kind that a row shows (`Column.reading`) is the kind of its node, or for an empty row the
part it plays for a gate elsewhere in the column.
-/

namespace QuantumCircuit

/-- The nodes of one column, top to bottom. -/
structure Column (n : Nat) where
  cells : Vector Node n
  deriving DecidableEq

namespace Column

variable {n : Nat}

/-- The column whose row `r` holds `f r`. -/
def ofRows (f : Nat → Node) : Column n := ⟨Vector.ofFn fun i => f i.val⟩

/-- The column that holds nothing. -/
def blank : Column n := ofRows Node.blank

/-- The node in a row. -/
def node (c : Column n) (row : Nat) : Node :=
  if h : row < n then c.cells[row] else .blank row

/-- All rows, top to bottom. -/
def rows (_ : Column n) : List Nat := List.range n

theorem node_ofRows {f : Nat → Node} {row : Nat} (h : row < n) :
    (ofRows f : Column n).node row = f row := by
  simp [node, ofRows, h]

theorem node_of_le (c : Column n) {row : Nat} (h : n ≤ row) : c.node row = .blank row := by
  simp [node, Nat.not_lt.2 h]

@[simp]
theorem node_blank (row : Nat) : (blank : Column n).node row = .blank row := by
  by_cases h : row < n
  · exact node_ofRows h
  · exact node_of_le _ (Nat.not_lt.1 h)

/-- A column is determined by its nodes. -/
theorem ext_node {c d : Column n} (h : ∀ row < n, c.node row = d.node row) : c = d := by
  obtain ⟨cells⟩ := c
  obtain ⟨cells'⟩ := d
  congr 1
  ext1 i hi
  simpa [node, hi] using h i hi

theorem mem_rows {c : Column n} {row : Nat} : row ∈ c.rows ↔ row < n := by simp [rows]

/-! ### What a row shows -/

/-- The first row whose node uses `row` as a control input. -/
def controller? (c : Column n) (row : Nat) : Option Nat :=
  c.rows.find? fun other => other != row && (c.node other).controls.contains row

/-- A node elsewhere in the column has `row` as its swap partner. -/
def isPartner (c : Column n) (row : Nat) : Bool :=
  c.rows.any fun other => other != row && (c.node other).partner == some row

/-- The kind that a row shows. -/
def reading (c : Column n) (row : Nat) : Kind :=
  if (c.node row).kind != .empty then (c.node row).kind
  else if (c.controller? row).isSome then .control
  else if c.isPartner row then .swap
  else .empty

/-- The row can take a new control or swap partner. -/
def isFree (c : Column n) (row : Nat) : Bool :=
  c.reading row == .empty || c.reading row == .trace

/-- A node elsewhere in the column, outside the rows in `except`, is linked to `row`. -/
def isLinked (c : Column n) (except : List Nat) (row : Nat) : Bool :=
  c.rows.any fun other =>
    other != row && !except.contains other && (c.node other).links.contains row

/-- A row lies strictly between two others, in either order. -/
def isBetween (a b row : Nat) : Bool := min a b < row && row < max a b

/-- A link of a node other than the one in row `except` passes `row`. -/
def isSpanned (c : Column n) (except row : Nat) : Bool :=
  c.rows.any fun other =>
    other != except && (c.node other).links.any fun link => isBetween other link row

/-! ### Faults -/

/-- The fault of a row that is not in the column. -/
def checkRow (_ : Column n) (row : Nat) : Except (EditError Nat) Unit :=
  if row < n then .ok () else .error (.outOfRange row)

/-- The fault of a row that something else has taken. -/
def occupied (c : Column n) (row : Nat) : EditError Nat := .occupied row (c.reading row)

end Column

end QuantumCircuit

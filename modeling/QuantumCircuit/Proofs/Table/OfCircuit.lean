import QuantumCircuit.Proofs.History
import QuantumCircuit.Proofs.Table.Local

/-!
# The table of a circuit

`Circuit.table` lists the cells of a circuit row by row.  For the work on one column the table is
looked at as a function of that column (`Circuit.tableWith`): reading a cell of the column reads the
column (`Circuit.cell?_tableWith`), and storing a node in a cell puts it into the column
(`Circuit.set_tableWith`).
-/

namespace QuantumCircuit

namespace Column

variable {n : Nat}

/-- The column with another node in a row. -/
def put (c : Column n) (row : Nat) (x : Node) : Column n :=
  ofRows fun r => if r = row then x else c.node r

theorem node_put (c : Column n) (row : Nat) (x : Node) {r : Nat} (h : r < n) :
    (c.put row x).node r = if r = row then x else c.node r :=
  node_ofRows h

end Column

namespace Circuit

variable {n d : Nat} {c : Circuit n d} {col : Nat} {x : Column n}

/-- The cells of a circuit, row by row. -/
def table (c : Circuit n d) : Table :=
  ⟨n, d, (List.range n).map fun row => (List.range d).map fun col => c.node ⟨row, col⟩⟩

theorem table_blank : (blank : Circuit n d).table = Table.blank n d := by
  simp only [table, Table.blank, node, column_blank, Column.node_blank, List.map_const',
    List.length_range]

theorem shape_table (c : Circuit n d) : c.table.shape = List.replicate n d := by
  simp [table, Table.shape, Function.comp_def, List.map_const']

theorem cell?_table (c : Circuit n d) (cell : Cell) :
    c.table.cell? cell = if cell.row < n ∧ cell.col < d then some (c.node cell) else none := by
  obtain ⟨row, col⟩ := cell
  by_cases hrow : row < n <;> by_cases hcol : col < d <;>
    simp [table, Table.cell?, hrow, hcol]

/-- The cells of a circuit that has another column in one place. -/
def tableWith (c : Circuit n d) (col : Nat) (x : Column n) : Table := (c.withColumn col x).table

theorem tableWith_column (c : Circuit n d) (col : Nat) :
    c.tableWith col (c.column col) = c.table := by
  unfold tableWith withColumn Circuit.column
  by_cases hcol : col < d <;> simp [hcol]

theorem cell?_tableWith (hcol : col < d) {row : Nat} (hrow : row < n) :
    (c.tableWith col x).cell? ⟨row, col⟩ = some (x.node row) := by
  rw [tableWith, cell?_table, if_pos ⟨hrow, hcol⟩, node, column_withColumn hcol, if_pos rfl]

/-- A node that is stored in a cell is put into the column. -/
theorem set_tableWith (hcol : col < d) {row : Nat} (hrow : row < n) (y : Node) :
    (c.tableWith col x).set ⟨row, col⟩ y = c.tableWith col (x.put row y) := by
  have hcell : ((c.tableWith col x).cell? ⟨row, col⟩).isSome = true := by
    rw [cell?_tableWith hcol hrow]
    rfl
  refine Table.ext_cell rfl rfl ?_ fun other => ?_
  · rw [Table.shape_set, tableWith, tableWith, shape_table, shape_table]
  · rw [Table.cell?_set hcell]
    simp only [tableWith, cell?_table, node, column_withColumn hcol]
    by_cases hother : other = ⟨row, col⟩
    · subst hother
      simp [hcol, hrow, Column.node_put]
    rw [if_neg hother]
    by_cases hin : other.row < n ∧ other.col < d
    · rw [if_pos hin, if_pos hin]
      by_cases hsame : other.col = col
      · have hrow' : other.row ≠ row := fun h => hother (by cases other; simp_all)
        rw [if_pos hsame, if_pos hsame, Column.node_put _ _ _ hin.1, if_neg hrow']
      · rw [if_neg hsame, if_neg hsame]
    · rw [if_neg hin, if_neg hin]

end Circuit

end QuantumCircuit

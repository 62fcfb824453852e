import QuantumCircuit.Column.Edit
import QuantumCircuit.Node.Instruction

/-!
# Circuits

A circuit of `n` wires is a row of `d` columns.  An edit changes one column and touches no
other (`Circuit.edit`); a cell outside the circuit is the first fault that is looked for.  The
program of a circuit lists the instructions of its nodes, column by column and each column from
top to bottom.
-/

namespace QuantumCircuit

/-- A circuit of `n` wires and `d` columns. -/
structure Circuit (n d : Nat) where
  columns : Vector (Column n) d
  deriving DecidableEq

namespace Circuit

variable {n d : Nat}

/-- The circuit that holds nothing. -/
def blank : Circuit n d := ⟨Vector.replicate d .blank⟩

/-- A column of the circuit; a blank one past the last. -/
def column (c : Circuit n d) (col : Nat) : Column n :=
  if h : col < d then c.columns[col] else .blank

/-- The node in a cell. -/
def node (c : Circuit n d) (cell : Cell) : Node := (c.column cell.col).node cell.row

/-- The kind that a cell shows. -/
def reading (c : Circuit n d) (cell : Cell) : Kind := (c.column cell.col).reading cell.row

/-- The cell lies in the circuit. -/
def contains (_ : Circuit n d) (cell : Cell) : Bool := cell.row < n && cell.col < d

theorem contains_iff {c : Circuit n d} {cell : Cell} :
    c.contains cell = true ↔ cell.row < n ∧ cell.col < d := by
  simp [contains]

/-- The fault of a cell that is not in the circuit. -/
def checkCell (c : Circuit n d) (cell : Cell) : Except (EditError Cell) Unit :=
  if c.contains cell then .ok () else .error (.outOfRange cell)

/-- The node in a cell of the circuit. -/
def node? (c : Circuit n d) (cell : Cell) : Except (EditError Cell) Node :=
  (c.checkCell cell).map fun _ => c.node cell

/-- The kind that a cell of the circuit shows. -/
def reading? (c : Circuit n d) (cell : Cell) : Except (EditError Cell) Kind :=
  (c.checkCell cell).map fun _ => c.reading cell

/-- The row of the gate that uses a cell as a control input. -/
def controller? (c : Circuit n d) (cell : Cell) : Option Nat :=
  (c.column cell.col).controller? cell.row

/-- The nodes of one column, top to bottom; none past the last column. -/
def columnNodes (c : Circuit n d) (col : Nat) : List Node :=
  if col < d then (c.column col).cells.toList else []

/-! ### Edits -/

/-- Performs a change of the column of a cell.  The change is told the faults of its rows, and
those are faults of cells of the circuit. -/
def edit {α : Type} (c : Circuit n d) (cell : Cell)
    (change : Column n → Except (EditError Nat) (Column n × α)) :
    Except (EditError Cell) (Circuit n d × α) :=
  if h : cell.col < d then
    match change c.columns[cell.col] with
    | .ok (column, a) => .ok (⟨c.columns.set cell.col column⟩, a)
    | .error e => .error (e.map (⟨·, cell.col⟩))
  else .error (.outOfRange cell)

/-- Performs an edit of a column. -/
def apply (c : Circuit n d) (col : Nat) (e : ColumnEdit) :
    Except (EditError Cell) (Circuit n d × Option Nat) :=
  c.edit ⟨e.row, col⟩ (·.apply e)

theorem column_edit {α : Type} {c c' : Circuit n d} {cell : Cell}
    {change : Column n → Except (EditError Nat) (Column n × α)} {a : α}
    (h : c.edit cell change = .ok (c', a)) :
    ∃ column, change (c.column cell.col) = .ok (column, a) ∧
      ∀ col, c'.column col = if col = cell.col then column else c.column col := by
  simp only [edit] at h
  split at h
  case isFalse => simp at h
  case isTrue hcol =>
    split at h <;> simp at h
    rename_i column a' hchange
    obtain ⟨rfl, rfl⟩ := h
    refine ⟨column, by simpa [Circuit.column, hcol] using hchange, fun col => ?_⟩
    by_cases hc : col < d
    · simp only [Circuit.column, hc, dif_pos, Vector.getElem_set, eq_comm]
    · have : col ≠ cell.col := fun h => hc (h ▸ hcol)
      simp [Circuit.column, hc, this]

/-! ### Programs -/

/-- The instructions of all nodes, columns from left to right and rows from top to bottom. -/
def instructions (c : Circuit n d) : List Instruction :=
  c.columns.toList.flatMap fun column => column.cells.toList.filterMap Node.instruction?

/-- The lines in front of every program: the version, the gate library, the registers, and one
instruction, because a program without any is not accepted everywhere. -/
def preamble (n : Nat) : List String :=
  ["OPENQASM 2.0;", "include \"qelib1.inc\";", s!"qreg q[{n}];", s!"creg c[{n}];", "id q;"]

/-- The lines of the program of a circuit. -/
def programLines (c : Circuit n d) : List String :=
  preamble n ++ c.instructions.map Instruction.toText

/-- The text of the program; every line is ended. -/
def program (c : Circuit n d) : String := String.join (c.programLines.map (· ++ "\n"))

/-- The kinds that the cells show, a line for each wire. -/
def describe (c : Circuit n d) : String :=
  "\n".intercalate ("CircuitGrid:" :: (List.range n).map fun row =>
    ", ".intercalate ((List.range d).map fun col => toString (c.reading ⟨row, col⟩)))

end Circuit

end QuantumCircuit

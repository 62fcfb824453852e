import Mathlib.Data.List.Basic
import QuantumCircuit.Proofs.ProgramLines
import QuantumCircuit.Proofs.Table.Commands

/-!
# Operations on a desk and in an editor

Every operation comes to the same on the desk of an editor as in the editor
(`Editor.Sound.run_operation`): the commands and edits by the agreement of the last modules, the
questions and the texts because their programs read the cells of the circuit and no others
(`InTable.Finds.read_cell`), and the steps of the cursor because it stays so close to the circuit
that a machine word holds its next row and column.  `Editor.Sound` is what all this needs to know of
an editor.
-/

namespace QuantumCircuit

namespace Circuit

variable {n d : Nat} {c : Circuit n d}

/-- A cell that is not in the circuit shows nothing. -/
theorem reading_of_outside (hlinked : ∀ col, (c.column col).Linked) {cell : Cell}
    (h : ¬(cell.row < n ∧ cell.col < d)) : c.reading cell = .empty := by
  refine Column.reading_eq_empty_iff.2 ?_
  by_cases hcol : cell.col < d
  · have hrow : ¬ cell.row < n := fun hrow => h ⟨hrow, hcol⟩
    refine ⟨?_, fun gate _ hmem => hrow ((hlinked _).lt_of_mem hmem)⟩
    rw [Column.node_of_le _ (Nat.not_lt.1 hrow), Node.symbol_blank]
  · simp [column, hcol]

theorem controller?_of_le {cell : Cell} (h : d ≤ cell.col) : c.controller? cell = none := by
  rw [← Option.not_isSome_iff_eq_none, controller?, Column.isSome_controller?_iff]
  simp [column, Nat.not_lt.2 h]

end Circuit

namespace InTable

variable {n d : Nat} {α β : Type} {c : Circuit n d} {cell : Cell}

namespace Finds

theorem map {t : Table} {p : InTable β} {b : β} (h : Finds t p b) (f : β → α) :
    Finds t (f <$> p) (f b) := by
  rw [map_eq_pure_bind]
  exact h.bind (pure _)

theorem get (t : Table) : Finds t MonadState.get t := rfl

theorem afterRefusal {t : Table} {p : InTable α} {a : α} (h : Finds t p a)
    (next : EditError Cell → InTable α) : Finds t (InTable.afterRefusal p next) a := by
  change p t = .ok a t at h
  change EStateM.tryCatch p _ t = .ok a t
  rw [EStateM.tryCatch, h]

theorem check {t : Table} (h : cell.row < t.wires ∧ cell.col < t.depth) :
    Finds t (InTable.check cell) () := by
  unfold InTable.check
  refine (get t).bind ?_
  rw [if_pos (by simpa using h)]
  exact pure _

/-! ### Questions -/

theorem read_cell (h : cell.row < n ∧ cell.col < d) :
    Finds c.table (InTable.read cell) (c.node cell) := by
  rw [← Circuit.tableWith_column c cell.col]
  exact read h.2 h.1

theorem reading_cell (h : cell.row < n ∧ cell.col < d) :
    Finds c.table (InTable.reading cell) (c.reading cell) := by
  rw [← Circuit.tableWith_column c cell.col]
  exact reading h.2 h.1

theorem gateOf (cell : Cell) : Finds c.table (InTable.gateOf cell) (c.controller? cell) := by
  unfold InTable.gateOf
  refine (get _).bind ?_
  split
  case isTrue hcol =>
    rw [Circuit.controller?_of_le (c := c) hcol]
    exact pure none
  case isFalse hcol =>
    rw [← Circuit.tableWith_column c cell.col]
    exact controller? (Nat.lt_of_not_le hcol) cell.row

theorem column (col : Nat) : Finds c.table (InTable.column col) (c.columnNodes col) := by
  have hnodes : (List.range n).filterMap (fun row => c.table.cell? ⟨row, col⟩) =
      c.columnNodes col := by
    unfold Circuit.columnNodes
    by_cases hcol : col < d
    · rw [if_pos hcol, Column.toList_cells, ← List.filterMap_eq_map]
      refine List.filterMap_congr fun row hrow => ?_
      rw [Circuit.cell?_table, if_pos ⟨List.mem_range.1 hrow, hcol⟩]
      rfl
    · rw [if_neg hcol, List.filterMap_eq_nil_iff]
      intro row _
      rw [Circuit.cell?_table, if_neg fun hin => hcol hin.2]
  rw [← hnodes]
  exact (get _).bind (pure _)

/-! ### Texts -/

theorem gateLines : Finds c.table InTable.gateLines (c.cells.filterMap c.lineAt) := by
  have hlines : c.cells.filterMap c.lineAt = (List.range d).flatMap fun col =>
      (List.range n).flatMap fun row => (c.lineAt ⟨row, col⟩).toList := by
    simp only [Circuit.cells, List.filterMap_eq_flatMap_toList, List.flatMap_assoc,
      List.flatMap_map]
  rw [hlines]
  refine (get _).bind <| collect fun col hcol => collect fun row hrow => ?_
  exact (read_cell ⟨List.mem_range.1 hrow, List.mem_range.1 hcol⟩).bind (pure _)

theorem program : Finds c.table InTable.program c.program := by
  rw [Circuit.program, Circuit.programLines_eq]
  exact ((get _).bind (pure _)).bind <| gateLines.bind (pure _)

theorem describe : Finds c.table InTable.describe c.describe := by
  unfold Circuit.describe
  simp only [List.map_eq_flatMap]
  refine (get _).bind <| (collect fun row hrow => ?_).bind (pure _)
  refine (collect fun col hcol => ?_).bind (pure _)
  exact (reading_cell ⟨List.mem_range.1 hrow, List.mem_range.1 hcol⟩).bind (pure _)

end Finds

theorem Refuses.afterRefusal {t : Table} {p : InTable α} {fault : EditError Cell}
    (h : Refuses t p fault) (next : EditError Cell → InTable α) :
    (InTable.afterRefusal p next).run t = (next fault).run t := by
  change p t = .error (.refused fault) t at h
  change EStateM.tryCatch p _ t = next fault t
  rw [EStateM.tryCatch, h]
  rfl

end InTable

/-- Before anything else an operation looks whether its cell is there. -/
theorem Operation.run_of_outside {desk : Desk} {op : Operation} {cell : Cell}
    (hfirst : op.firstChecked? = some cell)
    (h : ¬(cell.row < desk.table.wires ∧ cell.col < desk.table.depth)) :
    op.run desk = .error (.refused (.outOfRange cell)) desk.table := by
  cases op with
  | command command => exact (InTable.refuses_attempt hfirst h).map _
  | edit col e =>
    cases hfirst
    exact (InTable.refuses_edit e h).map _
  | node | kind =>
    cases hfirst
    exact ((InTable.refuses_check h).bind _).map _
  | _ => cases hfirst

namespace Editor

variable {n d : Nat} {e : Editor n d}

/-- What an editor makes of an operation, and what it tells. -/
def serve (e : Editor n d) : Operation → Editor n d × Except (EditError Cell) Answer
  | .command command => ((e.perform command).1, (e.perform command).2.map .row)
  | .edit col edit =>
    match e.circuit.apply col edit with
    | .ok (circuit, row) => ({ e with circuit }, .ok (.row row))
    | .error fault => (e, .error fault)
  | .reset => (e.reset, .ok (.cursor ⟨0, 0⟩))
  | .node cell => (e, (e.circuit.node? cell).map .node)
  | .kind cell => (e, (e.circuit.reading? cell).map .kind)
  | .gateOf cell => (e, .ok (.row (e.circuit.controller? cell)))
  | .column col => (e, .ok (.nodes (e.circuit.columnNodes col)))
  | .program => (e, .ok (.text e.circuit.program))
  | .describe => (e, .ok (.text e.circuit.describe))
  | .moveCursor direction => (e.moveCursor direction, .ok (.cursor (e.moveCursor direction).cursor))
  | .resetCursor => (e.resetCursor, .ok (.cursor ⟨0, 0⟩))
  | .selectedKind => (e, .ok (.kind e.selectedKind))

/-- The table of the circuit of an editor, with the cursor of the editor. -/
def desk (e : Editor n d) : Desk := ⟨e.circuit.table, e.cursor⟩

/-- The result of an editor, seen on its desk. -/
def shown {α : Type} :
    Editor n d × Except (EditError Cell) α → EStateM.Result Stop Table α
  | (e, .ok a) => .ok a e.circuit.table
  | (e, .error fault) => .error (.refused fault) e.circuit.table

/-- The circuit has come about by actions and is not too large, and the cursor is at most one cell
outside. -/
structure Sound (e : Editor n d) : Prop where
  wires_lt : n < 2 ^ 63
  depth_lt : d < 2 ^ 63
  reachable : e.circuit.Reachable
  row_le : e.cursor.row ≤ n
  col_le : e.cursor.col ≤ d

/-- A question about a cell that is looked for first. -/
theorem run_question {α : Type} {cell : Cell} {p : InTable α} {a : α} (f : α → Answer)
    (h : cell.row < n ∧ cell.col < d → InTable.Finds e.circuit.table p a) :
    (f <$> (InTable.check cell >>= fun _ => p)).run e.circuit.table =
      shown (e, ((e.circuit.checkCell cell).map fun _ => a).map f) := by
  unfold Circuit.checkCell Circuit.contains
  by_cases hin : cell.row < n ∧ cell.col < d
  · rw [if_pos (by simpa using hin)]
    exact ((InTable.Finds.check hin).bind (h hin)).map f
  · rw [if_neg (by simpa using hin)]
    exact ((InTable.refuses_check hin).bind _).map f

theorem Sound.run_command (h : e.Sound) (command : Command) :
    (Operation.command command).run e.desk = shown (e.serve (.command command)) := by
  change (Answer.row <$> InTable.attempt command).run e.circuit.table = _
  rw [map_eq_pure_bind, EStateM.run_bind, InTable.run_attempt h.wires_lt h.reachable.linked, serve,
    perform]
  cases attempt e.circuit command <;> rfl

theorem Sound.run_edit (h : e.Sound) (col : Nat) (edit : ColumnEdit) :
    (Operation.edit col edit).run e.desk = shown (e.serve (.edit col edit)) := by
  have hword : n < UInt64.size := Nat.lt_trans h.wires_lt (by decide)
  change (Answer.row <$> InTable.edit col edit).run e.circuit.table = _
  rw [map_eq_pure_bind, EStateM.run_bind, InTable.run_edit hword h.reachable.linked, serve]
  cases e.circuit.apply col edit <;> rfl

theorem Sound.finds_moveCursor (h : e.Sound) (direction : Direction) :
    InTable.Finds e.circuit.table (InTable.moveCursor e.cursor direction)
      (e.moveCursor direction).cursor := by
  have hword : 2 ^ 63 < UInt64.size := by decide
  obtain ⟨hn, hd, -, hrow, hcol⟩ := h
  cases direction with
  | up => exact .pure _
  | left => exact .pure _
  | down => exact (InTable.Finds.below (by omega)).bind ((InTable.Finds.get _).bind (.pure _))
  | right => exact (InTable.Finds.below (by omega)).bind ((InTable.Finds.get _).bind (.pure _))

theorem Sound.finds_selectedKind (h : e.Sound) :
    InTable.Finds e.circuit.table (InTable.selectedKind e.cursor) e.selectedKind := by
  by_cases hin : e.cursor.row < n ∧ e.cursor.col < d
  · exact ((InTable.Finds.check hin).bind (.reading_cell hin)).afterRefusal _
  · rw [selectedKind, Circuit.reading_of_outside h.reachable.linked hin]
    exact ((InTable.refuses_check hin).bind _).afterRefusal _

/-- An operation comes to the same on the desk of an editor as in the editor. -/
theorem Sound.run_operation (h : e.Sound) (op : Operation) :
    op.run e.desk = shown (e.serve op) := by
  cases op with
  | command command => exact h.run_command command
  | edit col edit => exact h.run_edit col edit
  | reset => exact congrArg (EStateM.Result.ok _) Circuit.table_blank.symm
  | node cell => exact run_question _ .read_cell
  | kind cell => exact run_question _ .reading_cell
  | gateOf cell => exact (InTable.Finds.gateOf cell).map _
  | column col => exact (InTable.Finds.column col).map _
  | program => exact InTable.Finds.program.map _
  | describe => exact InTable.Finds.describe.map _
  | moveCursor direction => exact (h.finds_moveCursor direction).map _
  | resetCursor => rfl
  | selectedKind => exact h.finds_selectedKind.map _

end Editor

end QuantumCircuit

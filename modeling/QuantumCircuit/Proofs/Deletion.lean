import QuantumCircuit.Proofs.Column.Deletion
import QuantumCircuit.Proofs.Frame

/-!
# Deleting

What is deleted is decided by what a cell shows: nothing, a control input with its gate, or a gate.
A gate takes with it all rows from its own to its far end, whatever stands there, and frees the
rows that it was linked to (`DeletedAt`).

* `delete_cases` : deleting in an edited circuit, for every cell of it.
-/

namespace QuantumCircuit

namespace Circuit

variable {n d : Nat} {c c' : Circuit n d}

/-- The circuit `c'` is `c` after the gate in a cell has been deleted, with all rows up to `far`. -/
structure DeletedAt (c : Circuit n d) (gate : Cell) (far : Nat) (c' : Circuit n d) : Prop where
  node_within : ∀ row, Column.Within gate.row far row →
    c'.node ⟨row, gate.col⟩ = .blank row
  /-- Outside these rows only marks are taken away. -/
  node_outside : ∀ row, ¬ Column.Within gate.row far row →
    c'.node ⟨row, gate.col⟩ = c.node ⟨row, gate.col⟩ ∨
      ((c.node ⟨row, gate.col⟩).kind = .control ∨ (c.node ⟨row, gate.col⟩).kind = .trace) ∧
        c'.node ⟨row, gate.col⟩ = .blank row
  column_eq : ∀ col, col ≠ gate.col → c'.column col = c.column col
  reading_gate : c'.reading gate = .empty
  reading_link : ∀ link ∈ (c.node gate).links, c'.reading ⟨link, gate.col⟩ = .empty
  /-- The program loses the lines of these rows. -/
  programLines_eq : c.programLines = preamble n ++ c.cells.filterMap c.lineAt ∧
    c'.programLines = preamble n ++ (c.cells.filter fun cell =>
      ¬ (cell.col = gate.col ∧ Column.Within gate.row far cell.row)).filterMap c.lineAt

/-! ### The program -/

/-- If the cells outside some set keep their lines and the others have none any more, then the
program loses the lines of these. -/
theorem filterMap_lineAt_of_lost {lost : Cell → Prop} [DecidablePred lost]
    (hlost : ∀ cell, lost cell → c'.lineAt cell = none)
    (hkept : ∀ cell, ¬ lost cell → c'.lineAt cell = c.lineAt cell) (cells : List Cell) :
    cells.filterMap c'.lineAt = (cells.filter fun cell => ¬ lost cell).filterMap c.lineAt := by
  rw [List.filterMap_filter]
  refine List.filterMap_congr fun cell _ => ?_
  by_cases hcell : lost cell
  · simp [hcell, hlost cell hcell]
  · simp [hcell, hkept cell hcell]

theorem kind_of_isStructural {x : Node} (h : x.symbol.isStructural = true) :
    x.kind = .control ∨ x.kind = .trace := by
  rw [Node.kind_eq_plain_iff rfl, Node.kind_eq_plain_iff rfl]
  cases hs : x.symbol <;> simp_all [Symbol.isStructural]

/-- A cell that has at most lost a mark keeps its line, for marks have none. -/
theorem lineAt_of_lost_mark {cell : Cell} (h : c'.node cell = c.node cell ∨
    (c.node cell).symbol.isStructural = true ∧ c'.node cell = .blank cell.row) :
    c'.lineAt cell = c.lineAt cell := by
  rcases h with heq | ⟨hmark, heq⟩
  · rw [lineAt, heq, lineAt]
  · rw [lineAt_of_blank heq, lineAt_of_isNull]
    rcases kind_of_isStructural hmark with hk | hk <;> rw [hk] <;> rfl

/-! ### Deleting a gate -/

/-- Putting back a column without one of its gates deletes the gate. -/
theorem deletedAt_withColumn (h : c.EditReachable) {gate : Cell} (hcol : gate.col < d)
    (hgate : (c.node gate).symbol.isNull = false) :
    c.DeletedAt gate (Column.farEnd (c.node gate) gate.row)
      (c.withColumn gate.col ((c.column gate.col).deleteGate gate.row)) := by
  have htidy := h.tidy gate.col
  have htidy' := htidy.deleteGate gate.row
  have hcleared := (c.column gate.col).cleared_deleteGate gate.row
  have hwithin := Column.within_left gate.row (Column.farEnd (c.node gate) gate.row)
  have hcolumn : (c.withColumn gate.col ((c.column gate.col).deleteGate gate.row)).column
      gate.col = (c.column gate.col).deleteGate gate.row := by
    rw [column_withColumn hcol, if_pos rfl]
  have hother : ∀ col, col ≠ gate.col →
      (c.withColumn gate.col ((c.column gate.col).deleteGate gate.row)).column col =
        c.column col := fun col hne => by
    rw [column_withColumn hcol, if_neg hne]
  generalize c.withColumn gate.col ((c.column gate.col).deleteGate gate.row) = c' at hcolumn hother
  have hnode : ∀ row, c'.node ⟨row, gate.col⟩ =
      ((c.column gate.col).deleteGate gate.row).node row := fun row => by rw [node, hcolumn]
  have houtside : ∀ row, ¬ Column.Within gate.row (Column.farEnd (c.node gate) gate.row) row →
      c'.node ⟨row, gate.col⟩ = c.node ⟨row, gate.col⟩ ∨
        (c.node ⟨row, gate.col⟩).symbol.isStructural = true ∧
          c'.node ⟨row, gate.col⟩ = .blank row := by
    intro row hrow
    rw [hnode]
    exact hcleared.node_of_other hrow
  refine ⟨fun row hrow => ?_, fun row hrow => ?_, hother, ?_, fun link hl => ?_,
    programLines_eq c, ?_⟩
  · rw [hnode]
    exact hcleared.node_of_row hrow
  · exact (houtside row hrow).imp_right (·.imp_left kind_of_isStructural)
  · rw [reading, hcolumn]
    exact hcleared.reading_of_gate htidy hwithin hgate
  · rw [reading, hcolumn]
    exact hcleared.reading_of_link htidy htidy' hwithin hl
  · rw [programLines_eq]
    refine congrArg (preamble n ++ ·) (filterMap_lineAt_of_lost (fun cell hlost => ?_)
      (fun cell hkept => ?_) c.cells)
    · obtain ⟨hcell, hrow⟩ := hlost
      have hblank : c'.node cell = .blank cell.row := by
        rw [node, hcell, hcolumn, hcleared.node_of_row hrow]
      exact lineAt_of_blank hblank
    · by_cases hcell : cell.col = gate.col
      · have hrow := houtside cell.row fun hrow => hkept ⟨hcell, hrow⟩
        rw [← hcell] at hrow
        exact lineAt_of_lost_mark hrow
      · rw [lineAt, node, hother cell.col hcell, lineAt, node]

/-! ### What is deleted -/

theorem apply_delete_of_ok {row col : Nat} (hcol : col < d) {column : Column n}
    (h : (c.column col).delete row = .ok column) :
    c.apply col (.delete row) = .ok (c.withColumn col column, none) := by
  rw [apply, edit_eq_ok_iff]
  refine ⟨hcol, column, ?_, rfl⟩
  rw [Column.apply, h]
  rfl

theorem apply_delete_of_error {row col : Nat} (hcol : col < d) {e : EditError Nat}
    (h : (c.column col).delete row = .error e) :
    c.apply col (.delete row) = .error (e.map (⟨·, col⟩)) := by
  have happly : (c.column col).apply (.delete row) = .error e := by
    rw [Column.apply, h]
    rfl
  exact edit_of_error hcol happly

/-- Deleting in an edited circuit.  A cell that shows nothing is left alone; a passing wire, and the
partner of a swap, cannot be deleted by themselves; a control input is deleted with the one gate
that it belongs to, and just as that gate is; and any other cell holds a gate, which is deleted up
to its far end. -/
theorem delete_cases (h : c.EditReachable) {cell : Cell} (hcell : c.contains cell = true) :
    (c.reading cell = .empty → c.apply cell.col (.delete cell.row) = .ok (c, none)) ∧
    (c.reading cell = .trace ∨ c.reading cell = .swap ∧ (c.node cell).kind = .empty →
      c.apply cell.col (.delete cell.row) = .error (.notRemovable cell (c.reading cell))) ∧
    (c.reading cell = .control → ∃ gate c', cell.row ∈ (c.node ⟨gate, cell.col⟩).controls ∧
      (∀ other, cell.row ∈ (c.node ⟨other, cell.col⟩).controls → other = gate) ∧
      c.apply cell.col (.delete gate) = .ok (c', none) ∧
      c.apply cell.col (.delete cell.row) = .ok (c', none)) ∧
    (c.reading cell ≠ .empty → c.reading cell ≠ .trace → c.reading cell ≠ .control →
      ¬ (c.reading cell = .swap ∧ (c.node cell).kind = .empty) →
      ∃ far c', Column.IsFarEnd (c.node cell) cell.row far ∧
        c.apply cell.col (.delete cell.row) = .ok (c', none) ∧ c.DeletedAt cell far c') := by
  obtain ⟨hrow, hcol⟩ : cell.row < n ∧ cell.col < d := by simpa [contains] using hcell
  have htidy := h.tidy cell.col
  refine ⟨fun hempty => ?_, fun hpart => ?_, fun hcontrol => ?_,
    fun hempty htrace hcontrol hpart => ?_⟩
  · rw [apply_delete_of_ok hcol (Column.delete_of_empty hrow hempty), withColumn_column]
  · rcases hpart with htrace | ⟨hswap, hkind⟩
    · exact apply_delete_of_error hcol (Column.delete_of_trace hrow htrace)
    · exact apply_delete_of_error hcol (Column.delete_of_partner hrow hswap hkind)
  · obtain ⟨gate, hgate⟩ := htidy.controller?_of_reading hcontrol
    have hmem := (Column.controller?_eq_some hgate).2
    have hlink := Node.mem_links_of_mem_controls hmem
    -- Only gates have controls.
    have hnull : ((c.column cell.col).node gate).symbol.isNull = false := by
      by_contra hnull
      rw [htidy.links_of_isNull (by simpa using hnull)] at hlink
      cases hlink
    refine ⟨gate, _, hmem,
      fun other hother => htidy.owner_eq (Node.mem_links_of_mem_controls hother) hlink,
      apply_delete_of_ok hcol (Column.delete_of_gate (Column.lt_of_mem_links hlink) hnull),
      apply_delete_of_ok hcol (Column.delete_of_control hrow hcontrol hgate)⟩
  · have hgate := Column.isNull_of_reading hempty htrace hcontrol hpart
    exact ⟨_, _, Column.isFarEnd_farEnd _ _,
      apply_delete_of_ok hcol (Column.delete_of_gate hrow hgate), deletedAt_withColumn h hcol hgate⟩

/-- The two controls are equally far from their gate, so the rows down to the lower one are emptied,
with the Hadamard gate in between, and the upper one is freed outside them. -/
theorem delete_cases_straddled :
    Editor.straddled.EditReachable ∧
      (∀ row < 5, Editor.straddled.contains ⟨row, 0⟩ = true) ∧
      (Editor.straddled.node ⟨2, 0⟩).links = [0, 4] ∧
      (Editor.straddled.node ⟨3, 0⟩).kind = .plain .hadamard ∧
      (∃ c', Editor.straddled.apply 0 (.delete 2) = .ok (c', none) ∧
        Editor.straddled.DeletedAt ⟨2, 0⟩ 4 c') ∧
      (∃ gate c', 0 ∈ (Editor.straddled.node ⟨gate, 0⟩).controls ∧
        Editor.straddled.apply 0 (.delete gate) = .ok (c', none) ∧
        Editor.straddled.apply 0 (.delete 0) = .ok (c', none)) ∧
      Editor.straddled.apply 0 (.delete 1) = .error (.notRemovable ⟨1, 0⟩ .trace) := by
  have hreach : Editor.straddled.EditReachable := editReachable_stretched.after _ rfl
  have hcells : ∀ row < 5, Editor.straddled.contains ⟨row, 0⟩ = true := by decide
  have hlinks : (Editor.straddled.node ⟨2, 0⟩).links = [0, 4] := by decide +kernel
  have hhadamard : (Editor.straddled.node ⟨3, 0⟩).kind = .plain .hadamard := by decide +kernel
  have hgate : Editor.straddled.reading ⟨2, 0⟩ = .toffoli := by decide +kernel
  have hcontrol : Editor.straddled.reading ⟨0, 0⟩ = .control := by decide +kernel
  have htrace : Editor.straddled.reading ⟨1, 0⟩ = .trace := by decide +kernel
  have hfar : Column.farEnd (Editor.straddled.node ⟨2, 0⟩) 2 = 4 := by decide +kernel
  refine ⟨hreach, hcells, hlinks, hhadamard, ?_, ?_, ?_⟩
  · obtain ⟨far, c', hend, hok, hdeleted⟩ :=
      (delete_cases hreach (hcells 2 (by decide))).2.2.2 (by simp [hgate]) (by simp [hgate])
        (by simp [hgate]) (by simp [hgate])
    rw [Column.isFarEnd_iff.1 hend, hfar] at hdeleted
    exact ⟨c', hok, hdeleted⟩
  · obtain ⟨gate, c', hmem, -, hok, hok'⟩ :=
      (delete_cases hreach (hcells 0 (by decide))).2.2.1 hcontrol
    exact ⟨gate, c', hmem, hok, hok'⟩
  · rw [← htrace]
    exact (delete_cases hreach (hcells 1 (by decide))).2.1 (.inl htrace)

end Circuit

end QuantumCircuit

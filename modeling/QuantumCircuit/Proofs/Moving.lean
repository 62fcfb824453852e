import QuantumCircuit.Proofs.Column.Moving
import QuantumCircuit.Proofs.Frame

/-!
# Moving controls

* `move_reversible` : in an edited circuit the control of a gate moves up or down exactly if it is
  the only one and the next row, the row of the gate left out, shows nothing or a passing wire; the
  way back is then open, and it restores the program.
-/

namespace QuantumCircuit

namespace Circuit

variable {n d : Nat} {c c' : Circuit n d}

section

variable {gate : Cell} {direction : Direction} {old row : Nat}

/-- The circuit in which the control of a gate has moved. -/
def withMove (c : Circuit n d) (gate : Cell) (old row : Nat) : Circuit n d :=
  c.withColumn gate.col ((c.column gate.col).afterMove gate.row old row)

theorem column_withMove (hcol : gate.col < d) (old row : Nat) :
    (c.withMove gate old row).column gate.col =
      (c.column gate.col).afterMove gate.row old row := by
  rw [withMove, column_withColumn hcol, if_pos rfl]

theorem EditReachable.apply_moveControl_eq_ok (h : c.EditReachable) (hcol : gate.col < d)
    (hm : (c.column gate.col).Movable gate.row direction old row) :
    c.apply gate.col (.moveControl gate.row direction) =
      .ok (c.withMove gate old row, some row) :=
  edit_eq_ok_iff.2
    ⟨hcol, _, congrArg (Except.map _) (hm.moveControl_eq_ok (h.tidy gate.col)), rfl⟩

/-- A control moves, or it is blocked. -/
theorem EditReachable.apply_moveControl_cases (h : c.EditReachable)
    (hgate : c.contains gate = true) (direction : Direction) :
    (∃ old row, (c.column gate.col).Movable gate.row direction old row ∧
      c.apply gate.col (.moveControl gate.row direction) =
        .ok (c.withMove gate old row, some row)) ∨
    (∀ old row, ¬ (c.column gate.col).Movable gate.row direction old row) ∧
      c.apply gate.col (.moveControl gate.row direction) = .error (.blocked gate) := by
  obtain ⟨hrow, hcol⟩ := contains_iff.1 hgate
  rcases (h.tidy gate.col).moveControl_cases hrow direction with
    ⟨old, row, hm, -⟩ | ⟨hno, hblocked⟩
  · exact .inl ⟨old, row, hm, h.apply_moveControl_eq_ok hcol hm⟩
  · exact .inr ⟨hno, edit_of_error (e := .blocked gate.row) hcol
      (congrArg (Except.map _) hblocked)⟩

/-- A control that has moved can go back, and then every cell has the line that it had: the gate
is the old one again, and no other gate has changed. -/
theorem EditReachable.apply_moveControl_back (h : c.EditReachable) (hcol : gate.col < d)
    (hm : (c.column gate.col).Movable gate.row direction old row) :
    ∃ c'', (c.withMove gate old row).apply gate.col (.moveControl gate.row direction.opposite) =
      .ok (c'', some old) ∧ c''.program = c.program := by
  have htidy := h.tidy gate.col
  have hmove : Editor.attempt c (.moveControl gate direction) =
      .ok (c.withMove gate old row, some row) := h.apply_moveControl_eq_ok hcol hm
  have h' : (c.withMove gate old row).EditReachable := by
    have hafter := h.after (.command (.moveControl gate direction)) rfl
    rwa [Circuit.after, hmove, settle] at hafter
  have hm' : ((c.withMove gate old row).column gate.col).Movable gate.row direction.opposite
      row old := by
    rw [column_withMove hcol]
    exact hm.back htidy
  have hback : Editor.attempt (c.withMove gate old row) (.moveControl gate direction.opposite) =
      .ok ((c.withMove gate old row).withMove gate row old, some old) :=
    h'.apply_moveControl_eq_ok hcol hm'
  refine ⟨_, hback, ?_⟩
  have hnode : ((c.withMove gate old row).withMove gate row old).node gate = c.node gate := by
    rw [node, column_withMove hcol, (hm'.moved (h'.tidy gate.col)).node_gate,
      column_withMove hcol, (hm.moved htidy).node_gate, node]
    simp only [← hm.control]
  have hlines : ((c.withMove gate old row).withMove gate row old).lineAt = c.lineAt := by
    funext cell
    by_cases hcell : cell = gate
    · rw [hcell, lineAt, hnode, lineAt]
    · rw [(changedAt_attempt hback not_false).lineAt_eq h' hcell,
        (changedAt_attempt hmove not_false).lineAt_eq h hcell]
  rw [program, program, programLines_eq, programLines_eq, hlines]
  rfl

end

/-- Moving a control there and back.  The control of a gate moves in a direction exactly if it is
the only one and the next row, the row of the gate left out, is in the circuit and shows nothing or
a passing wire; otherwise it is blocked, and to the left and right it always is.  The new row is
told.  It shows a control input then, and the gate is controlled from it; the row that the control
has left shows a passing wire if it lies between the gate and the new row, and else nothing.  The
control can move back, to where it was, and then the program is what it was. -/
theorem move_reversible (h : c.EditReachable) {gate : Cell} (hgate : c.contains gate = true)
    (direction : Direction) :
    ((∃ c' told, c.apply gate.col (.moveControl gate.row direction) = .ok (c', told)) ↔
      ∃ old row, (c.node gate).control = some old ∧ (c.node gate).secondControl = none ∧
        Column.IsNext n gate.row old row direction ∧
        (c.reading ⟨row, gate.col⟩ = .empty ∨ c.reading ⟨row, gate.col⟩ = .trace)) ∧
    (∀ c' told, c.apply gate.col (.moveControl gate.row direction) = .ok (c', told) →
      ∃ old row, (c.node gate).control = some old ∧
        Column.IsNext n gate.row old row direction ∧ told = some row ∧
        c'.node gate = { c.node gate with control := some row } ∧
        c'.reading ⟨row, gate.col⟩ = .control ∧
        c'.reading ⟨old, gate.col⟩ =
          (if Column.isBetween gate.row row old then .trace else .empty) ∧
        ∃ c'', c'.apply gate.col (.moveControl gate.row direction.opposite) =
          .ok (c'', some old) ∧ c''.program = c.program) ∧
    ((∀ c' told, c.apply gate.col (.moveControl gate.row direction) ≠ .ok (c', told)) →
      c.apply gate.col (.moveControl gate.row direction) = .error (.blocked gate)) ∧
    (direction = .left ∨ direction = .right →
      c.apply gate.col (.moveControl gate.row direction) = .error (.blocked gate) ∧
        c.after (.edit gate.col (.moveControl gate.row direction)) = c) := by
  have hcol := (contains_iff.1 hgate).2
  rcases h.apply_moveControl_cases hgate direction with ⟨old, row, hm, hok⟩ | ⟨hno, hblocked⟩
  · have hmoved := hm.moved (h.tidy gate.col)
    rw [← column_withMove hcol] at hmoved
    refine ⟨iff_of_true ⟨_, _, hok⟩
      ⟨old, row, hm.control, hm.second, hm.next, Column.isFree_iff_reading.1 hm.isFree⟩, ?_, ?_, ?_⟩
    · rintro _ _ hok'
      rw [hok] at hok'
      cases hok'
      exact ⟨old, row, hm.control, hm.next, rfl, hmoved.node_gate, hmoved.reading_row,
        hmoved.reading_old, h.apply_moveControl_back hcol hm⟩
    · exact fun hno => absurd hok (hno _ _)
    · rintro (rfl | rfl)
      · exact hm.next.elim
      · exact hm.next.elim
  · rw [hblocked]
    refine ⟨iff_of_false ?_ ?_, fun _ _ hok => ?_, fun _ => rfl, fun _ => ⟨rfl, ?_⟩⟩
    · rintro ⟨_, _, hok⟩
      cases hok
    · rintro ⟨old, row, hcontrol, hsecond, hnext, hreading⟩
      exact hno old row ⟨hcontrol, hsecond, hnext, Column.isFree_iff_reading.2 hreading⟩
    · cases hok
    · rw [after, hblocked, settle]

/-- A controlled X in row 1 of four, whose control has moved from the row above it to the row
below. -/
def underneath : Circuit 4 1 :=
  ((blank.after (.command (.place ⟨1, 0⟩ (.plain .x) []))).after
    (.edit 0 (.attachControl 1 0))).after
    (.command (.moveControl ⟨1, 0⟩ .down))

/-- Away from the gate a passing wire is left behind, and beyond the gate there is none. -/
theorem move_reversible_underneath :
    underneath.EditReachable ∧ underneath.contains ⟨1, 0⟩ = true ∧
      (∃ c' c'', underneath.apply 0 (.moveControl 1 .down) = .ok (c', some 3) ∧
        c'.reading ⟨3, 0⟩ = .control ∧ c'.reading ⟨2, 0⟩ = .trace ∧
        c'.apply 0 (.moveControl 1 .up) = .ok (c'', some 2) ∧
        c''.program = underneath.program) ∧
      (∃ c' c'', underneath.apply 0 (.moveControl 1 .up) = .ok (c', some 0) ∧
        c'.reading ⟨0, 0⟩ = .control ∧ c'.reading ⟨2, 0⟩ = .empty ∧
        c'.apply 0 (.moveControl 1 .down) = .ok (c'', some 2) ∧
        c''.program = underneath.program) ∧
      underneath.apply 0 (.moveControl 1 .left) = .error (.blocked ⟨1, 0⟩) := by
  have hreach : underneath.EditReachable :=
    ((EditReachable.blank.after _ rfl).after _ rfl).after _ rfl
  have hcell : underneath.contains ⟨1, 0⟩ = true := rfl
  have hcontrol : (underneath.node ⟨1, 0⟩).control = some 2 := by decide +kernel
  have hsecond : (underneath.node ⟨1, 0⟩).secondControl = none := by decide +kernel
  have hdown := move_reversible hreach hcell .down
  have hup := move_reversible hreach hcell .up
  obtain ⟨c', told, hok⟩ := hdown.1.2 ⟨2, 3, hcontrol, hsecond,
    Column.isNext_down_iff.2 (by decide), .inl (by decide +kernel)⟩
  obtain ⟨e', told', hok'⟩ := hup.1.2 ⟨2, 0, hcontrol, hsecond,
    Column.isNext_up_iff.2 (by decide), .inl (by decide +kernel)⟩
  obtain ⟨old, row, hold, hnext, rfl, -, hnew, hleft, c'', hback, hprogram⟩ := hdown.2.1 c' told hok
  obtain ⟨old', row', hold', hnext', rfl, -, hnew', hleft', e'', hback', hprogram'⟩ :=
    hup.2.1 e' told' hok'
  obtain rfl : old = 2 := Option.some.inj (hold.symm.trans hcontrol)
  obtain rfl : old' = 2 := Option.some.inj (hold'.symm.trans hcontrol)
  obtain rfl : row = 3 := by
    have : row < 4 ∧ (3 = row ∧ row ≠ 1 ∨ 4 = row ∧ 3 = 1) := Column.isNext_down_iff.1 hnext
    omega
  obtain rfl : row' = 0 := by
    have : row' + 1 = 2 ∧ row' ≠ 1 ∨ row' + 2 = 2 ∧ row' + 1 = 1 := Column.isNext_up_iff.1 hnext'
    omega
  exact ⟨hreach, hcell, ⟨c', c'', hok, hnew, hleft, hback, hprogram⟩,
    ⟨e', e'', hok', hnew', hleft', hback', hprogram'⟩,
    ((move_reversible hreach hcell .left).2.2.2 (.inl rfl)).1⟩

end Circuit

end QuantumCircuit

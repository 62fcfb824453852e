import QuantumCircuit.Proofs.Modes
import QuantumCircuit.Proofs.Screen.Widths

/-!
# The view follows the cursor

The columns that are drawn are chosen from the place of the cursor alone: as many as fit, and the
column of the cursor is the last of them as soon as it would not fit otherwise.  In every session
the cursor is on a cell of the circuit (`Session.Coherent`), so its column is always drawn.

* `CircuitView.view_follows_cursor` : which columns are drawn in a session, where the column of the
  cursor is among them, and how far to the right the lines go.

One column is drawn even where none fits.  From eighteen characters on there is room for one, and
two characters are left over.  The middle line of a wire takes these as well if its label is too
long, so the view is cut off nowhere as long as the numbers of the wires have at most four digits.
-/

namespace QuantumCircuit

namespace CircuitView

/-! ### Columns -/

section

variable (depth cursor width : Nat)

/-- The column where the drawn ones stop. -/
def stopColumn : Nat := min (firstColumn cursor width + columnsThatFit width) depth

theorem shownColumns_eq :
    shownColumns depth cursor width =
      List.range' (firstColumn cursor width)
        (stopColumn depth cursor width - firstColumn cursor width) := rfl

theorem columnsThatFit_pos : 0 < columnsThatFit width := Nat.le_max_right _ _

theorem firstColumn_le : firstColumn cursor width ≤ cursor := by
  have hfit := columnsThatFit_pos width
  unfold firstColumn
  omega

theorem stopColumn_le : stopColumn depth cursor width ≤ depth := Nat.min_le_right _ _

theorem stopColumn_sub_le :
    stopColumn depth cursor width - firstColumn cursor width ≤ columnsThatFit width := by
  unfold stopColumn
  omega

theorem length_shownColumns :
    (shownColumns depth cursor width).length =
      stopColumn depth cursor width - firstColumn cursor width := by
  rw [shownColumns_eq, List.length_range']

end

variable {depth cursor width : Nat}

/-- The columns go on at least up to the cursor. -/
theorem lt_stopColumn (hcursor : cursor < depth) : cursor < stopColumn depth cursor width := by
  unfold stopColumn firstColumn
  omega

/-- The place of the cursor among the columns. -/
theorem place_lt (hcursor : cursor < depth) :
    cursor - firstColumn cursor width < (shownColumns depth cursor width).length := by
  have hfirst := firstColumn_le cursor width
  have hstop : cursor < stopColumn depth cursor width := lt_stopColumn hcursor
  rw [length_shownColumns]
  omega

theorem getElem_place
    (hplace : cursor - firstColumn cursor width < (shownColumns depth cursor width).length) :
    (shownColumns depth cursor width)[cursor - firstColumn cursor width] = cursor := by
  have hfirst := firstColumn_le cursor width
  simp only [shownColumns_eq, List.getElem_range']
  omega

/-- As soon as there is room for a column, two characters are left over. -/
theorem room_of_le (hwidth : 18 ≤ width) :
    labelWidth + cellWidth * columnsThatFit width ≤ width - 2 := by
  simp only [columnsThatFit, labelWidth, cellWidth]
  omega

/-! ### Lines -/

/-- The number of the cursor's column stands in the line of column numbers. -/
theorem header_at (hcursor : cursor < depth) :
    part (header (shownColumns depth cursor width))
        (labelWidth + cellWidth * (cursor - firstColumn cursor width)) cellWidth =
      centred (toString cursor).toList cellWidth := by
  have hplace : cursor - firstColumn cursor width < (shownColumns depth cursor width).length :=
    place_lt hcursor
  rw [header, part_fields (fun col => length_centred _ _) (length_run _ _) _ hplace,
    getElem_place hplace]

/-- The label of a wire has room for two digits, and with more of them it grows. -/
theorem max_labelWidth (digits : Nat) :
    max labelWidth (digits + 5) = labelWidth + (digits - 2) := by
  unfold labelWidth
  omega

/-- The cell of the cursor's column stands in the lines of a wire under the number of the column.
The middle line is shifted by the characters that the label has too many. -/
theorem wireStrip_at {n d : Nat} {e : Editor n d} (hcursor : e.cursor.col < d)
    (showsCursor : Bool) (width row : Nat) :
    let columns := shownColumns d e.cursor.col width
    let wire := wireStrip e showsCursor columns row
    let cell := cellStrip e showsCursor row e.cursor.col
    let place := labelWidth + cellWidth * (e.cursor.col - firstColumn e.cursor.col width)
    let excess := (toString row).length - 2
    part wire.top place cellWidth = cell.top ∧
      part wire.middle (place + excess) cellWidth = cell.middle ∧
      part wire.bottom place cellWidth = cell.bottom ∧
      wire.top.length = (header columns).length ∧
      wire.middle.length = (header columns).length + excess ∧
      wire.bottom.length = (header columns).length := by
  intro columns wire cell place excess
  have haligned := aligned_wireStrip e showsCursor columns row
  rw [max_labelWidth] at haligned
  have hplace : e.cursor.col - firstColumn e.cursor.col width < columns.length := place_lt hcursor
  have hcell : e.cursor.col - firstColumn e.cursor.col width <
      (columns.map (cellStrip e showsCursor row)).length := by
    rwa [List.length_map]
  have hat : (columns.map (cellStrip e showsCursor row))[
      e.cursor.col - firstColumn e.cursor.col width] = cell := by
    rw [List.getElem_map, getElem_place hplace]
  have hcount : (columns.map (cellStrip e showsCursor row)).length = columns.length :=
    List.length_map _
  have hlength := length_header columns
  refine ⟨?_, ?_, ?_, ?_, ?_, ?_⟩
  · rw [haligned.top _ hcell, hat]
  · rw [Nat.add_right_comm, haligned.middle _ hcell, hat]
  · rw [haligned.bottom _ hcell, hat]
  · rw [haligned.width_top, hcount, hlength]
  · rw [haligned.width_middle, hcount, hlength, Nat.add_right_comm]
  · rw [haligned.width_bottom, hcount, hlength]

/-- The line of column numbers leaves two characters free in any width that a column fits in. -/
theorem length_header_le (hwidth : 18 ≤ width) :
    (header (shownColumns depth cursor width)).length ≤ width - 2 := by
  have hcount := stopColumn_sub_le depth cursor width
  have hroom := room_of_le hwidth
  rw [length_header, length_shownColumns]
  simp only [labelWidth, cellWidth] at hroom ⊢
  omega

/-- The columns that are drawn in a session are contiguous, the column of the cursor is one of them,
and they are not more than fit, or a single one.  In each line the number or the cell of the
cursor's column stands at its place among them.  In eighteen characters or more the line of column
numbers, and with it the outer lines of the wires, leave two characters free.  The middle line of a
wire is longer, and shifted, by the digits that its number has beyond two. -/
theorem view_follows_cursor {settings : Settings} {s : Session settings.wires settings.depth}
    (h : s.Reached settings) (showsCursor : Bool) (width : Nat) :
    let cursor := s.editor.cursor
    let columns := shownColumns settings.depth cursor.col width
    let wire := wireStrip s.editor showsCursor columns
    lines s.editor showsCursor width =
        header columns :: (List.range settings.wires).flatMap
          (fun row => [(wire row).top, (wire row).middle, (wire row).bottom]) ∧
      ∃ first stop,
        columns = List.range' first (stop - first) ∧
        first ≤ cursor.col ∧ cursor.col < stop ∧ stop ≤ settings.depth ∧
        stop - first ≤ max 1 ((width - 9) / 9) ∧
        let place := labelWidth + cellWidth * (cursor.col - first)
        part (header columns) place cellWidth = centred (toString cursor.col).toList cellWidth ∧
        (∀ row,
          let cell := cellStrip s.editor showsCursor row cursor.col
          let excess := (toString row).length - 2
          part (wire row).top place cellWidth = cell.top ∧
          part (wire row).middle (place + excess) cellWidth = cell.middle ∧
          part (wire row).bottom place cellWidth = cell.bottom ∧
          (wire row).top.length = (header columns).length ∧
          (wire row).middle.length = (header columns).length + excess ∧
          (wire row).bottom.length = (header columns).length) ∧
        (18 ≤ width → (header columns).length ≤ width - 2 ∧ place + cellWidth ≤ width - 2) := by
  intro cursor columns wire
  have hcursor : cursor.col < settings.depth := h.coherent.cursor.col_lt
  refine ⟨rfl, firstColumn cursor.col width, stopColumn settings.depth cursor.col width,
    shownColumns_eq _ _ _, firstColumn_le _ _, lt_stopColumn hcursor, stopColumn_le _ _ _, ?fit,
    header_at hcursor, wireStrip_at hcursor showsCursor width, fun hwidth => ?room⟩
  case fit =>
    rw [Nat.max_comm]
    exact stopColumn_sub_le _ _ _
  case room =>
    -- the field of the cursor's column ends before the line of column numbers does
    have hlength : (header columns).length ≤ width - 2 := length_header_le hwidth
    have hplace : cursor.col - firstColumn cursor.col width < columns.length := place_lt hcursor
    refine ⟨hlength, ?_⟩
    rw [length_header] at hlength
    simp only [labelWidth, cellWidth] at hlength ⊢
    omega

/-- A terminal after the cursor was moved to the second of two columns. -/
def besideFirst : Terminal Session.smallSettings.wires Session.smallSettings.depth :=
  [.press { code := .right }].foldl Terminal.run Session.opened

/-- Settings of a circuit with more columns than fit into a narrow view. -/
def longSettings : Settings := { wires := 2, depth := 6 }

/-- A terminal after the cursor was moved to the fifth of six columns. -/
def fifthColumn : Terminal longSettings.wires longSettings.depth :=
  (List.replicate 4 (.press { code := .right })).foldl Terminal.run
    (.start (.start (.start longSettings.rotationStep) longSettings.output) 80 24)

theorem reached_fifthColumn : fifthColumn.session.Reached longSettings :=
  Terminal.reached_run (.start (Editor.ofSettings_eq_ok (by decide +kernel))) _

/-- In eighteen characters only the second column is drawn, in the field behind the labels, and the
first one is scrolled away.  In thirty-six there is room for three columns, and of six the three up
to the cursor's are drawn. -/
theorem view_follows_cursor_besideFirst :
    besideFirst.session.Reached Session.smallSettings ∧ 18 ≤ 18 ∧
      besideFirst.session.editor.cursor.col = 1 ∧
      shownColumns Session.smallSettings.depth 1 18 = [1] ∧
      part (header [1]) 7 9 = "    1    ".toList ∧ (header [1]).length ≤ 16 ∧
      (wireStrip besideFirst.session.editor true [1] 0).middle.length = (header [1]).length ∧
      fifthColumn.session.Reached longSettings ∧ 18 ≤ 36 ∧
      fifthColumn.session.editor.cursor.col = 4 ∧
      shownColumns longSettings.depth 4 36 = [2, 3, 4] ∧
      part (header [2, 3, 4]) 25 9 = "    4    ".toList ∧ (header [2, 3, 4]).length ≤ 34 ∧
      part (wireStrip fifthColumn.session.editor true [2, 3, 4] 0).middle 25 9 =
        (cellStrip fifthColumn.session.editor true 0 4).middle ∧
      (wireStrip fifthColumn.session.editor true [2, 3, 4] 0).middle.length =
        (header [2, 3, 4]).length := by
  have hreached : besideFirst.session.Reached Session.smallSettings := Session.reached_opened _
  have hcursor : besideFirst.session.editor.cursor.col = 1 := by decide +kernel
  have hcolumns : shownColumns Session.smallSettings.depth 1 18 = [1] := by decide
  have hone := view_follows_cursor hreached true 18
  dsimp only at hone
  rw [hcursor, hcolumns] at hone
  obtain ⟨-, first, stop, hrange, -, -, -, -, hheader, hwires, hroom⟩ := hone
  obtain rfl : first = 1 := (List.range'_eq_cons_iff.1 hrange.symm).1
  obtain ⟨-, -, -, -, hmiddle, -⟩ := hwires 0
  have hcursor' : fifthColumn.session.editor.cursor.col = 4 := by decide +kernel
  have hcolumns' : shownColumns longSettings.depth 4 36 = [2, 3, 4] := by decide
  have hthree := view_follows_cursor reached_fifthColumn true 36
  dsimp only at hthree
  rw [hcursor', hcolumns'] at hthree
  obtain ⟨-, first, stop, hrange', -, -, -, -, hheader', hwires', hroom'⟩ := hthree
  obtain rfl : first = 2 := (List.range'_eq_cons_iff.1 hrange'.symm).1
  obtain ⟨-, hcell, -, -, hmiddle', -⟩ := hwires' 0
  exact ⟨hreached, Nat.le_refl 18, hcursor, hcolumns, hheader, (hroom (Nat.le_refl 18)).1, hmiddle,
    reached_fifthColumn, by decide, hcursor', hcolumns', hheader', (hroom' (by decide)).1, hcell,
    hmiddle'⟩

end CircuitView

end QuantumCircuit

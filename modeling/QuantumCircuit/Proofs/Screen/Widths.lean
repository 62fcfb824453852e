import QuantumCircuit.Proofs.Letters
import QuantumCircuit.Proofs.Screen.LinkLines

/-!
# The widths of the view

Every cell is drawn nine characters wide, whatever it holds and whatever lines run through it, so
in each line the columns stand one behind the other in fields of nine characters.  What stands in
front of a wire is seven characters wide as long as the number of the wire has at most two digits.
From `q[100]` on it is wider, and the wire is shifted against the two lines above and below it.

* `CircuitView.fields_aligned` : how long each line of the view is, and where in it the columns and
  the links are drawn; all lines have the same length exactly if there are at most a hundred wires;
* `CircuitView.label_too_wide` : a view with a line that is too long.
-/

namespace QuantumCircuit

namespace CircuitView

/-! ### Cells -/

/-- The three lines of the strip have the same width. -/
structure Strip.HasWidth (s : Strip) (width : Nat) : Prop where
  top : s.top.length = width
  middle : s.middle.length = width
  bottom : s.bottom.length = width

@[simp]
theorem length_run (k : Nat) (c : Char) : (run k c).length = k := List.length_replicate

theorem length_stub (isLinked : Bool) : (stub isLinked).length = cellWidth := by
  cases isLinked <;> rfl

/-- A glyph is one character. -/
theorem length_label_of_isGlyph {k : Kind} (h : isGlyph k = true) : k.label.toList.length = 1 := by
  cases k with
  | plain s => cases s <;> first | rfl | cases h
  | rotated a => cases h
  | controlled t => cases t <;> first | rfl | cases h
  | toffoli => rfl

theorem length_onWire {label : List Char} (hlabel : label.length = 1) {width : Nat}
    (hwidth : 0 < width) : (onWire label width).length = width := by
  simp only [onWire, List.length_append, length_run, hlabel]
  omega

theorem length_named (k : Kind) : (named k).length = cellWidth - 2 := by
  simp only [named, List.length_append, length_centred]
  rfl

theorem length_boxEdge (left middle right : Char) :
    (boxEdge left middle right).length = cellWidth := rfl

theorem hasWidth_draw (look : CellLook) : look.draw.HasWidth cellWidth := by
  obtain ⟨kind, above, below⟩ := look
  unfold CellLook.draw
  dsimp only
  split
  · rename_i hglyph
    exact ⟨length_stub _, length_onWire (length_label_of_isGlyph hglyph) (by decide),
      length_stub _⟩
  · split
    · refine ⟨length_boxEdge _ _ _, ?_, length_boxEdge _ _ _⟩
      simp only [List.length_append, length_run, length_named]
      rfl
    · split
      · exact ⟨rfl, rfl, rfl⟩
      · exact ⟨length_stub _, rfl, length_stub _⟩

theorem hasWidth_drawSelected (look : CellLook) : look.drawSelected.HasWidth cellWidth := by
  obtain ⟨kind, above, below⟩ := look
  refine ⟨rfl, ?_, rfl⟩
  unfold CellLook.drawSelected
  dsimp only
  rw [List.length_append, List.length_append]
  have hwire : (if isGlyph kind = true then onWire kind.label.toList (cellWidth - 2)
      else if (kind != .empty) = true then named kind
      else if (above && below) = true then onWire ['┼'] (cellWidth - 2)
      else run (cellWidth - 2) '─').length = cellWidth - 2 := by
    split
    · rename_i hglyph
      exact length_onWire (length_label_of_isGlyph hglyph) (by decide)
    · split
      · exact length_named kind
      · split <;> rfl
  rw [hwire]
  rfl

variable {n d : Nat}

/-- Every cell is drawn in a field of the same size. -/
theorem hasWidth_cellStrip (e : Editor n d) (showsCursor : Bool) (row col : Nat) :
    (cellStrip e showsCursor row col).HasWidth cellWidth := by
  unfold cellStrip
  dsimp only
  split
  · exact hasWidth_drawSelected _
  · exact hasWidth_draw _

/-! ### Links -/

/-- The characters with a line upwards or downwards at the edge of a cell. -/
def linkMarks : List Char := ['│', '┴', '┬']

/-- A line has a link at a place. -/
def hasLink (text : List Char) (place : Nat) : Bool := text[place]?.any (· ∈ linkMarks)

theorem hasLink_stub (isLinked : Bool) : hasLink (stub isLinked) (cellWidth / 2) = isLinked := by
  cases isLinked <;> rfl

theorem hasLink_boxEdge (left middle right : Char) :
    hasLink (boxEdge left middle right) (cellWidth / 2) = decide (middle ∈ linkMarks) := rfl

/-- A cell shows the links to the rows above it and below it in the middle of its edges. -/
theorem hasLink_draw (look : CellLook) :
    hasLink look.draw.top (cellWidth / 2) = look.above ∧
      hasLink look.draw.bottom (cellWidth / 2) = look.below := by
  obtain ⟨kind, above, below⟩ := look
  unfold CellLook.draw
  dsimp only
  split
  · exact ⟨hasLink_stub above, hasLink_stub below⟩
  · split
    · rw [hasLink_boxEdge, hasLink_boxEdge]
      exact ⟨by cases above <;> rfl, by cases below <;> rfl⟩
    · split
      · rename_i hpasses
        obtain ⟨rfl, rfl⟩ := Bool.and_eq_true_iff.1 hpasses
        exact ⟨hasLink_stub true, hasLink_stub true⟩
      · exact ⟨hasLink_stub above, hasLink_stub below⟩

/-- What leaves a row downwards comes into the next one from above. -/
theorem linesAbove_succ (extents : List (Nat × Nat)) (row : Nat) :
    linesAbove extents (row + 1) = linesBelow extents row := by
  simp only [linesAbove, linesBelow, Nat.lt_succ_iff, Nat.succ_le_iff]

theorem hasLink_cellStrip {e : Editor n d} {showsCursor : Bool} {row col : Nat}
    (hcursor : ¬(showsCursor = true ∧ e.cursor = ⟨row, col⟩)) :
    hasLink (cellStrip e showsCursor row col).top (cellWidth / 2) =
        linesAbove (extents (e.circuit.column col)) row ∧
      hasLink (cellStrip e showsCursor row col).bottom (cellWidth / 2) =
        linesBelow (extents (e.circuit.column col)) row := by
  unfold cellStrip
  dsimp only
  rw [if_neg (by simpa using hcursor)]
  exact hasLink_draw _

/-! ### Fields -/

/-- A text in fields of one size is as long as its fields together. -/
theorem length_fields {α β : Type} {f : α → List β} {size : Nat} (h : ∀ x, (f x).length = size)
    (xs : List α) : (xs.flatMap f).length = size * xs.length := by
  rw [List.length_flatMap, List.map_congr_left fun x _ => h x, List.map_const',
    List.sum_replicate_nat, Nat.mul_comm]

/-- The part of a list that starts at a place and has a size. -/
def part {α : Type} (xs : List α) (start size : Nat) : List α := (xs.drop start).take size

/-- The fields of a text in fields of one size, behind something in front of them. -/
theorem part_fields {α β : Type} {f : α → List β} {size : Nat} (h : ∀ x, (f x).length = size)
    {front : List β} {start : Nat} (hfront : front.length = start) (xs : List α) {j : Nat}
    (hj : j < xs.length) :
    part (front ++ xs.flatMap f) (start + size * j) size = f xs[j] := by
  rw [part, ← List.drop_drop, List.drop_left' hfront]
  induction xs generalizing j with
  | nil => cases hj
  | cons x xs ih =>
    rw [List.flatMap_cons]
    cases j with
    | zero => exact List.take_left' (h x)
    | succ j =>
      rw [Nat.mul_succ, Nat.add_comm, ← List.drop_drop, List.drop_left' (h x)]
      exact ih (Nat.lt_of_succ_lt_succ hj)

theorem hasLink_part {line : List Char} {start size place : Nat} (hplace : place < size) :
    hasLink (part line start size) place = hasLink line (start + place) := by
  rw [hasLink, part, List.getElem?_take_of_lt hplace, List.getElem?_drop, hasLink]

/-! ### Wires -/

/-- A wire is its label and then the cells, in each of the three lines. -/
theorem foldl_append (cell : Nat → Strip) (columns : List Nat) (label : Strip) :
    columns.foldl (fun strip col => strip.append (cell col)) label =
      ⟨label.top ++ columns.flatMap fun col => (cell col).top,
       label.middle ++ columns.flatMap fun col => (cell col).middle,
       label.bottom ++ columns.flatMap fun col => (cell col).bottom⟩ := by
  induction columns generalizing label with
  | nil => simp
  | cons col rest ih =>
    rw [List.foldl_cons, ih]
    simp [Strip.append]

/-- The label has room for two digits. -/
theorem length_wireLabel (row : Nat) :
    (wireLabel row).middle.length = max labelWidth ((toString row).length + 5) := by
  have hname : s!"q[{row}]".toList.length = (toString row).length + 3 := by
    simp only [Text.toString_string, String.length_toList, String.length_append]
    change 2 + _ + 1 = _
    omega
  simp only [wireLabel, padded, List.length_append, length_run, hname, labelWidth]
  omega

theorem length_toString_le_two_iff {row : Nat} : (toString row).length ≤ 2 ↔ row < 100 :=
  Nat.length_repr_le_iff (by decide)

/-- A wire whose cells stand in fields of the same size: in the first and the last line behind
`labelWidth` characters, in the line between them behind `front` characters. -/
structure Strip.Aligned (s : Strip) (front : Nat) (cells : List Strip) : Prop where
  width_top : s.top.length = labelWidth + cellWidth * cells.length
  width_middle : s.middle.length = front + cellWidth * cells.length
  width_bottom : s.bottom.length = labelWidth + cellWidth * cells.length
  top : ∀ j (hj : j < cells.length),
    part s.top (labelWidth + cellWidth * j) cellWidth = cells[j].top
  middle : ∀ j (hj : j < cells.length),
    part s.middle (front + cellWidth * j) cellWidth = cells[j].middle
  bottom : ∀ j (hj : j < cells.length),
    part s.bottom (labelWidth + cellWidth * j) cellWidth = cells[j].bottom

theorem aligned_wireStrip (e : Editor n d) (showsCursor : Bool) (columns : List Nat) (row : Nat) :
    (wireStrip e showsCursor columns row).Aligned (max labelWidth ((toString row).length + 5))
      (columns.map (cellStrip e showsCursor row)) := by
  have hcell := hasWidth_cellStrip e showsCursor row
  have hside : (run labelWidth ' ').length = labelWidth := length_run _ _
  have hlabel := length_wireLabel row
  rw [wireStrip, foldl_append]
  constructor
  case width_top =>
    rw [List.length_append, length_fields fun col => (hcell col).top, List.length_map]
    rfl
  case width_middle =>
    rw [List.length_append, length_fields fun col => (hcell col).middle, List.length_map, hlabel]
  case width_bottom =>
    rw [List.length_append, length_fields fun col => (hcell col).bottom, List.length_map]
    rfl
  all_goals
    intro j hj
    rw [List.length_map] at hj
    rw [List.getElem_map]
  case top => exact part_fields (fun col => (hcell col).top) hside columns hj
  case middle => exact part_fields (fun col => (hcell col).middle) hlabel columns hj
  case bottom => exact part_fields (fun col => (hcell col).bottom) hside columns hj

/-- The links of a cell without the frame of the cursor are in the middle of its field. -/
theorem hasLink_wireStrip {e : Editor n d} {showsCursor : Bool} {columns : List Nat} {row j : Nat}
    (hj : j < columns.length)
    (hcursor : ¬(showsCursor = true ∧ e.cursor = ⟨row, columns[j]⟩)) :
    let strip := wireStrip e showsCursor columns row
    let place := labelWidth + cellWidth * j + cellWidth / 2
    hasLink strip.top place = linesAbove (extents (e.circuit.column columns[j])) row ∧
      hasLink strip.bottom place = linesBelow (extents (e.circuit.column columns[j])) row := by
  intro strip place
  have haligned := aligned_wireStrip e showsCursor columns row
  have hcell : j < (columns.map (cellStrip e showsCursor row)).length := by
    rwa [List.length_map]
  have htop := haligned.top j hcell
  have hbottom := haligned.bottom j hcell
  have hmiddle : cellWidth / 2 < cellWidth := by decide
  rw [← hasLink_part hmiddle, ← hasLink_part hmiddle, htop, hbottom, List.getElem_map]
  exact hasLink_cellStrip hcursor

/-! ### The view -/

theorem length_header (columns : List Nat) :
    (header columns).length = labelWidth + cellWidth * columns.length := by
  rw [header, List.length_append, length_fields fun col => length_centred _ _, length_run]

/-- The lines of a wire. -/
theorem mem_lines {e : Editor n d} {showsCursor : Bool} {width : Nat} {line : List Char} :
    line ∈ lines e showsCursor width ↔
      line = header (shownColumns d e.cursor.col width) ∨ ∃ row < n,
        let strip := wireStrip e showsCursor (shownColumns d e.cursor.col width) row
        line = strip.top ∨ line = strip.middle ∨ line = strip.bottom := by
  simp [lines]

/-- All lines are equally long as long as the numbers of the wires have at most two digits. -/
theorem length_line_iff (e : Editor n d) (showsCursor : Bool) (width : Nat) :
    (∀ line ∈ lines e showsCursor width,
        line.length = labelWidth + cellWidth * (shownColumns d e.cursor.col width).length) ↔
      n ≤ 100 := by
  generalize hcolumns : shownColumns d e.cursor.col width = columns
  have haligned := fun row => aligned_wireStrip e showsCursor columns row
  constructor
  · intro h
    by_contra hn
    have hmiddle := h _ (mem_lines.2 (.inr ⟨100, by omega, .inr (.inl rfl)⟩))
    rw [hcolumns, (haligned 100).width_middle, List.length_map] at hmiddle
    have hdigits : ¬ (toString 100).length ≤ 2 := by
      rw [length_toString_le_two_iff]
      decide
    simp only [labelWidth] at hmiddle
    omega
  · intro hn line hline
    rw [mem_lines, hcolumns] at hline
    rcases hline with rfl | ⟨row, hrow, rfl | rfl | rfl⟩
    · exact length_header columns
    · rw [(haligned row).width_top, List.length_map]
    · have hdigits := length_toString_le_two_iff.2 (show row < 100 by omega)
      rw [(haligned row).width_middle, List.length_map, Nat.max_eq_left]
      simp only [labelWidth]
      omega
    · rw [(haligned row).width_bottom, List.length_map]

/-- The view has the column numbers in its first line and three lines for every wire.  Column
numbers and cells stand in fields of nine characters, and between two wires the links are in the
middle of the fields, in the last line of the one as in the first line of the other.  The fields
begin at the same place in all lines but one: in the middle line of a wire they stand behind the
label, which needs more than seven characters if the number of the wire has more than two digits.
So all lines have the same length exactly if there are at most a hundred wires. -/
theorem fields_aligned (e : Editor n d) (showsCursor : Bool) (width : Nat) :
    let columns := shownColumns d e.cursor.col width
    let view := lines e showsCursor width
    let wire := wireStrip e showsCursor columns
    view.length = 1 + 3 * n ∧
      ((∀ line ∈ view, line.length = labelWidth + cellWidth * columns.length) ↔ n ≤ 100) ∧
      (view.head? = some (header columns) ∧
        (header columns).length = labelWidth + cellWidth * columns.length ∧
        ∀ j (hj : j < columns.length),
          part (header columns) (labelWidth + cellWidth * j) cellWidth =
            centred (toString columns[j]).toList cellWidth) ∧
      (∀ row < n,
        part view (1 + 3 * row) 3 = [(wire row).top, (wire row).middle, (wire row).bottom] ∧
          (wire row).Aligned (max labelWidth ((toString row).length + 5))
            (columns.map (cellStrip e showsCursor row))) ∧
      ∀ row j (hj : j < columns.length),
        (showsCursor = true →
          e.cursor ≠ ⟨row, columns[j]⟩ ∧ e.cursor ≠ ⟨row + 1, columns[j]⟩) →
        let place := labelWidth + cellWidth * j + cellWidth / 2
        let isLinked := linesBelow (extents (e.circuit.column columns[j])) row
        hasLink (wire row).bottom place = isLinked ∧
          hasLink (wire (row + 1)).top place = isLinked := by
  intro columns view wire
  have hthree : ∀ row, [(wire row).top, (wire row).middle, (wire row).bottom].length = 3 :=
    fun _ => rfl
  refine ⟨?_, length_line_iff e showsCursor width, ⟨rfl, length_header columns, fun j hj => ?_⟩,
    fun row hrow => ⟨?_, aligned_wireStrip e showsCursor columns row⟩, fun row j hj hcursor => ?_⟩
  · change (_ :: _).length = _
    rw [List.length_cons, length_fields hthree, List.length_range, Nat.add_comm]
  · exact part_fields (fun col => length_centred _ _) (length_run _ _) columns hj
  · have hheader : [header columns].length = 1 := rfl
    have hrange : row < (List.range n).length := by rwa [List.length_range]
    have hpart := part_fields hthree hheader (List.range n) hrange
    rwa [List.getElem_range] at hpart
  · have hupper := hasLink_wireStrip hj fun h => (hcursor h.1).1 h.2
    have hlower := hasLink_wireStrip hj fun h => (hcursor h.1).2 h.2
    rw [linesAbove_succ] at hlower
    exact ⟨hupper.2, hlower.1⟩

/-- The first two of five wires, with the link of a control. -/
theorem fields_aligned_stretched :
    let wire := wireStrip Circuit.stretchedEditor true [0]
    part (lines Circuit.stretchedEditor true 18) 1 3 =
        [(wire 0).top, (wire 0).middle, (wire 0).bottom] ∧
      (wire 0).Aligned labelWidth [cellStrip Circuit.stretchedEditor true 0 0] ∧
      hasLink (wire 0).bottom 11 = true ∧ hasLink (wire 1).top 11 = true := by
  intro wire
  obtain ⟨-, -, -, hwires, hlinks⟩ := fields_aligned Circuit.stretchedEditor true 18
  obtain ⟨hlines, haligned⟩ := hwires 0 (by decide)
  have hlinked : linesBelow (extents (Circuit.stretchedEditor.circuit.column 0)) 0 = true := by
    decide +kernel
  obtain ⟨hupper, hlower⟩ := hlinks 0 0 (by decide) fun _ => by decide
  exact ⟨hlines, haligned, hupper.trans hlinked, hlower.trans hlinked⟩

/-- One column of 101 wires: the line through the cell of `q[100]` is longer than the line of the
column numbers. -/
theorem label_too_wide :
    let e : Editor 101 1 := .start .pi
    (header (shownColumns 1 0 18)).length = labelWidth + cellWidth * 1 ∧
      ∃ line ∈ lines e true 18, line.length = labelWidth + cellWidth * 1 + 1 := by
  intro e
  refine ⟨length_header _, _, mem_lines.2 (.inr ⟨100, by decide, .inr (.inl rfl)⟩), ?_⟩
  exact (aligned_wireStrip e true _ 100).width_middle

end CircuitView

end QuantumCircuit

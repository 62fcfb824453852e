import QuantumCircuit.Proofs.ProgramLines
import QuantumCircuit.Screen.CircuitView

/-!
# Lines of links

The view of a circuit draws a line over the extent of each node that is linked, from the highest to
the lowest of its row and the rows it is linked to.  In an edited circuit both ends of an extent are
rows that show something, a gate or what a gate is linked to, so a row that shows nothing can only
be passed.

* `CircuitView.mem_extents_iff` : where lines are drawn and how far they go, by the links of nodes;
* `Circuit.lines_never_dangle` : no line begins or ends in an empty cell, and a passing wire is
  passed by a line.
-/

namespace QuantumCircuit

namespace CircuitView

variable {n : Nat} {c : Column n} {row : Nat}

/-! ### Extents -/

theorem foldl_min_eq_iff {a lo : Nat} {rows : List Nat} :
    rows.foldl min a = lo ↔ lo ∈ a :: rows ∧ ∀ row ∈ a :: rows, lo ≤ row := by
  rw [← List.min?_eq_some_iff, List.min?_cons', Option.some_inj]

theorem foldl_max_eq_iff {a hi : Nat} {rows : List Nat} :
    rows.foldl max a = hi ↔ hi ∈ a :: rows ∧ ∀ row ∈ a :: rows, row ≤ hi := by
  rw [← List.max?_eq_some_iff, List.max?_cons', Option.some_inj]

/-- The extent of a node goes from the least to the greatest of its rows, which are not the same. -/
theorem extent?_eq_some_iff {x : Node} {lo hi : Nat} :
    extent? x = some (lo, hi) ↔ (lo ∈ x.row :: x.links ∧ ∀ row ∈ x.row :: x.links, lo ≤ row) ∧
      (hi ∈ x.row :: x.links ∧ ∀ row ∈ x.row :: x.links, row ≤ hi) ∧ lo ≠ hi := by
  rw [← foldl_min_eq_iff, ← foldl_max_eq_iff]
  unfold extent?
  dsimp only
  split
  · rename_i heq
    refine ⟨nofun, ?_⟩
    rintro ⟨rfl, rfl, hne⟩
    exact absurd heq hne
  · rename_i hne
    rw [Option.some_inj, Prod.mk.injEq]
    refine ⟨?_, fun ⟨hlo, hhi, _⟩ => ⟨hlo, hhi⟩⟩
    rintro ⟨rfl, rfl⟩
    exact ⟨rfl, rfl, hne⟩

/-- A node with a link to another row has an extent over both. -/
theorem exists_extent? {x : Node} {link : Nat} (hlink : link ∈ x.links) (hne : link ≠ x.row) :
    ∃ p, extent? x = some p ∧ p.1 ≤ min x.row link ∧ max x.row link ≤ p.2 := by
  have hlo := foldl_min_eq_iff.1 (rfl : x.links.foldl min x.row = _)
  have hhi := foldl_max_eq_iff.1 (rfl : x.links.foldl max x.row = _)
  have hrow : x.row ∈ x.row :: x.links := List.mem_cons_self
  have hmem : link ∈ x.row :: x.links := List.mem_cons_of_mem _ hlink
  have hmin := Nat.le_min.2 ⟨hlo.2 _ hrow, hlo.2 _ hmem⟩
  have hmax := Nat.max_le.2 ⟨hhi.2 _ hrow, hhi.2 _ hmem⟩
  exact ⟨_, extent?_eq_some_iff.2 ⟨hlo, hhi, by omega⟩, hmin, hmax⟩

@[simp]
theorem extent?_blank (row : Nat) : extent? (.blank row) = none := by
  simp [extent?]

theorem mem_extents_iff {p : Nat × Nat} :
    p ∈ extents c ↔ ∃ gate, extent? (c.node gate) = some p := by
  rw [extents, Column.toList_cells, List.filterMap_map, List.mem_filterMap]
  constructor
  · rintro ⟨gate, -, hgate⟩
    exact ⟨gate, hgate⟩
  · rintro ⟨gate, hgate⟩
    refine ⟨gate, List.mem_range.2 (Nat.lt_of_not_le fun hle => ?_), hgate⟩
    rw [c.node_of_le hle, extent?_blank] at hgate
    cases hgate

theorem linesAbove_iff {ps : List (Nat × Nat)} :
    linesAbove ps row = true ↔ ∃ p ∈ ps, p.1 < row ∧ row ≤ p.2 := by
  simp [linesAbove]

theorem linesBelow_iff {ps : List (Nat × Nat)} :
    linesBelow ps row = true ↔ ∃ p ∈ ps, p.1 ≤ row ∧ row < p.2 := by
  simp [linesBelow]

end CircuitView

namespace Column

open CircuitView

variable {n : Nat} {c : Column n} {row : Nat}

/-- The ends of an extent are the row of a gate and a row that it is linked to, or two of those. -/
theorem Tidy.ends (h : c.Tidy) {p : Nat × Nat} (hp : p ∈ extents c) :
    p.1 < p.2 ∧ ∃ gate, (c.node gate).links ≠ [] ∧
      (p.1 = gate ∨ p.1 ∈ (c.node gate).links) ∧ (p.2 = gate ∨ p.2 ∈ (c.node gate).links) := by
  obtain ⟨gate, hgate⟩ := mem_extents_iff.1 hp
  obtain ⟨⟨hlo, hleast⟩, ⟨hhi, -⟩, hne⟩ := extent?_eq_some_iff.1 hgate
  refine ⟨Nat.lt_of_le_of_ne (hleast _ hhi) hne, gate, fun hnil => hne ?_, ?_, ?_⟩
  · rw [hnil, List.mem_singleton] at hlo hhi
    rw [hlo, hhi]
  · rwa [List.mem_cons, h.row_node] at hlo
  · rwa [List.mem_cons, h.row_node] at hhi

/-- A row that shows nothing has no links and is not linked to. -/
theorem Tidy.not_end_of_reading (h : c.Tidy) (hempty : c.reading row = .empty) {gate : Nat}
    (hlinks : (c.node gate).links ≠ []) : ¬(row = gate ∨ row ∈ (c.node gate).links) := by
  rintro (rfl | hmem)
  · refine hlinks (h.links_of_isNull ?_)
    rw [(reading_eq_empty_iff.1 hempty).1]
    rfl
  · exact h.not_mem_of_reading hempty gate hmem

theorem Tidy.end_lt (h : c.Tidy) {gate : Nat} (hlinks : (c.node gate).links ≠ [])
    (hend : row = gate ∨ row ∈ (c.node gate).links) : row < n := by
  rcases hend with rfl | hmem
  · exact lt_of_links_ne_nil hlinks
  · exact h.lt_of_mem hmem

/-- No line begins or ends in a row that shows nothing. -/
theorem Tidy.linesAbove_iff_linesBelow (h : c.Tidy) (hempty : c.reading row = .empty) :
    linesAbove (extents c) row = true ↔ linesBelow (extents c) row = true := by
  have hends : ∀ p ∈ extents c, row ≠ p.1 ∧ row ≠ p.2 := by
    intro p hp
    obtain ⟨-, gate, hlinks, hlo, hhi⟩ := h.ends hp
    have hnot := h.not_end_of_reading hempty hlinks
    exact ⟨fun heq => hnot (heq ▸ hlo), fun heq => hnot (heq ▸ hhi)⟩
  rw [linesAbove_iff, linesBelow_iff]
  refine exists_congr fun p => and_congr_right fun hp => ?_
  obtain ⟨hne, hne'⟩ := hends p hp
  omega

/-- A passing wire lies inside the extent of the node whose link passes it. -/
theorem Tidy.lines_of_trace (h : c.Tidy) (htrace : c.reading row = .trace) :
    linesAbove (extents c) row = true ∧ linesBelow (extents c) row = true := by
  obtain ⟨gate, link, hlink, hbetween⟩ := h.spanned (reading_eq_trace_iff.1 htrace)
  rw [isBetween_iff] at hbetween
  obtain ⟨p, hp, hlo, hhi⟩ := exists_extent? hlink (by rw [h.row_node]; exact h.ne_of_mem hlink)
  rw [h.row_node] at hlo hhi
  have hmem : p ∈ extents c := mem_extents_iff.2 ⟨gate, hp⟩
  exact ⟨linesAbove_iff.2 ⟨p, hmem, by omega, by omega⟩,
    linesBelow_iff.2 ⟨p, hmem, by omega, by omega⟩⟩

end Column

/-! ### Drawing -/

namespace CircuitView

/-- A wire without anything on it. -/
def plainWire : Strip := ⟨stub false, run cellWidth '─', stub false⟩

/-- A wire that a line crosses from top to bottom. -/
def crossing : Strip := ⟨stub true, onWire ['┼'] cellWidth, stub true⟩

/-- The strip of a cell in the frame of the cursor, of which only the wire is still seen. -/
def Strip.framed (s : Strip) : Strip :=
  let wire := (s.middle.drop 1).take (cellWidth - 2)
  ⟨['╔'] ++ run (cellWidth - 2) '═' ++ ['╗'], ['║'] ++ wire ++ ['║'],
    ['╚'] ++ run (cellWidth - 2) '═' ++ ['╝']⟩

theorem draw_empty (isCrossed : Bool) :
    (⟨.empty, isCrossed, isCrossed⟩ : CellLook).draw =
      if isCrossed then crossing else plainWire := by
  cases isCrossed <;> rfl

theorem drawSelected_empty (isCrossed : Bool) :
    (⟨.empty, isCrossed, isCrossed⟩ : CellLook).drawSelected =
      (if isCrossed then crossing else plainWire).framed := by
  cases isCrossed <;> rfl

end CircuitView

namespace Circuit

open CircuitView

variable {n d : Nat} {c : Circuit n d}

/-- In the view of an edited circuit no line of a link dangles.  Both ends of the extent of a link
are rows of the circuit that show something; a cell that shows nothing has a line above exactly if
it has one below, so it is drawn as a plain wire or as a full crossing, in the frame of the cursor
if that is there; and a passing wire has lines on both sides. -/
theorem lines_never_dangle (h : c.EditReachable) (col : Nat) :
    (∀ p ∈ extents (c.column col), p.1 < p.2 ∧ p.2 < n ∧
      c.reading ⟨p.1, col⟩ ≠ .empty ∧ c.reading ⟨p.2, col⟩ ≠ .empty) ∧
    (∀ row, c.reading ⟨row, col⟩ = .empty →
      (linesAbove (extents (c.column col)) row = true ↔
        linesBelow (extents (c.column col)) row = true) ∧
      ∀ (e : Editor n d) (showsCursor : Bool), e.circuit = c →
        let strip :=
          if linesAbove (extents (c.column col)) row then crossing else plainWire
        cellStrip e showsCursor row col =
          if showsCursor ∧ e.cursor = ⟨row, col⟩ then strip.framed else strip) ∧
    ∀ row, c.reading ⟨row, col⟩ = .trace →
      linesAbove (extents (c.column col)) row = true ∧
        linesBelow (extents (c.column col)) row = true := by
  have htidy := h.tidy col
  refine ⟨fun p hp => ?_, fun row hempty => ⟨htidy.linesAbove_iff_linesBelow hempty, ?_⟩,
    fun row htrace => htidy.lines_of_trace htrace⟩
  · obtain ⟨hlt, gate, hlinks, hlo, hhi⟩ := htidy.ends hp
    exact ⟨hlt, htidy.end_lt hlinks hhi, fun hempty => htidy.not_end_of_reading hempty hlinks hlo,
      fun hempty => htidy.not_end_of_reading hempty hlinks hhi⟩
  · rintro e showsCursor rfl
    have hreading : (e.circuit.column col).reading row = .empty := hempty
    have hsame := Bool.eq_iff_iff.2 (htidy.linesAbove_iff_linesBelow hempty)
    unfold cellStrip
    simp only [hreading, ← hsame, draw_empty, drawSelected_empty, Bool.and_eq_true, beq_iff_eq]

/-- An editor of that circuit, with the cursor between the gate and its second control. -/
def stretchedEditor : Editor 5 1 := ⟨stretched, ⟨3, 0⟩, .pi, ""⟩

theorem lines_never_dangle_stretched :
    stretched.EditReachable ∧ extents (stretched.column 0) = [(0, 4)] ∧
      stretched.reading ⟨4, 0⟩ ≠ .empty ∧
      stretched.reading ⟨3, 0⟩ = .empty ∧ linesAbove (extents (stretched.column 0)) 3 = true ∧
      linesBelow (extents (stretched.column 0)) 3 = true ∧
      cellStrip stretchedEditor true 3 0 = crossing.framed ∧
      stretched.reading ⟨1, 0⟩ = .trace ∧ linesBelow (extents (stretched.column 0)) 1 = true := by
  have hextents : extents (stretched.column 0) = [(0, 4)] := by decide +kernel
  have hempty : stretched.reading ⟨3, 0⟩ = .empty := by decide +kernel
  have htrace : stretched.reading ⟨1, 0⟩ = .trace := by decide +kernel
  have habove : linesAbove (extents (stretched.column 0)) 3 = true := by
    rw [hextents]
    decide
  have hmem : (0, 4) ∈ extents (stretched.column 0) := by
    rw [hextents]
    exact List.mem_singleton_self _
  obtain ⟨hends, hpassed, hmarked⟩ := lines_never_dangle editReachable_stretched 0
  obtain ⟨hiff, hdrawn⟩ := hpassed 3 hempty
  have hstrip := hdrawn stretchedEditor true (by rw [stretchedEditor])
  rw [habove] at hstrip
  exact ⟨editReachable_stretched, hextents, (hends _ hmem).2.2.2, hempty, habove,
    hiff.1 habove, hstrip, htrace, (hmarked 1 htrace).2⟩

end Circuit

end QuantumCircuit

import QuantumCircuit.Proofs.Column.Detachment
import QuantumCircuit.Proofs.Frame
import QuantumCircuit.Proofs.Marks

/-!
# Linking

* `link_iff` : in an edited circuit a gate can be linked to a row exactly if it takes the link and
  the row is another one that shows nothing or a passing wire; and what the column shows afterwards;
* `unlink_restores` : a gate that loses its first link again leaves the circuit as it was, but for a
  passing wire in the linked cell.
-/

namespace QuantumCircuit

namespace Circuit

variable {n d : Nat} {c c' : Circuit n d}

/-- The edit that links a gate links it in its column, and tells the linked row. -/
theorem EditReachable.apply_edit_eq_ok_iff (h : c.EditReachable) {col gate row : Nat} {l : Link}
    {told : Option Nat} :
    c.apply col (l.edit gate row) = .ok (c', told) ↔
      told = some row ∧ col < d ∧ (c.column col).Attachable l gate row ∧
        c' = c.withColumn col ((c.column col).withLink l gate row) := by
  rw [apply, edit_eq_ok_iff]
  constructor
  · rintro ⟨hcol, column, hok, rfl⟩
    rw [Column.apply_edit] at hok
    obtain ⟨_, hattach, heq⟩ := Column.map_eq_ok hok
    cases heq
    obtain ⟨ha, rfl⟩ := (h.tidy col).attach_eq_ok_iff.1 hattach
    exact ⟨rfl, hcol, ha, rfl⟩
  · rintro ⟨rfl, hcol, ha, rfl⟩
    refine ⟨hcol, _, ?_, rfl⟩
    rw [Column.apply_edit, (h.tidy col).attach_eq_ok_iff.2 ⟨ha, rfl⟩]
    rfl

/-- Linking in an edited circuit.  A gate is linked to a row exactly if it takes the link and the
row is another one that is free.  The row is told; it is emptied and shows what it is linked as, the
row of the link before shows nothing, the gate keeps the rest of what it holds, and of all other
rows only passing wires that no link passes any more show something else. -/
theorem link_iff (h : c.EditReachable) (l : Link) {gate : Cell} {row : Nat}
    (hgate : c.contains gate = true) (hrow : row < n) :
    ((∃ c' told, c.apply gate.col (l.edit gate.row row) = .ok (c', told)) ↔
      l.Allows (c.node gate) row ∧ row ≠ gate.row ∧
        (c.reading ⟨row, gate.col⟩ = .empty ∨ c.reading ⟨row, gate.col⟩ = .trace)) ∧
    ∀ c' told, c.apply gate.col (l.edit gate.row row) = .ok (c', told) →
      told = some row ∧
        (c.column gate.col).Attached l gate.row row (c'.column gate.col) ∧
        ∀ col, col ≠ gate.col → c'.column col = c.column col := by
  obtain ⟨hgate, hcol⟩ : gate.row < n ∧ gate.col < d := by simpa [contains] using hgate
  simp only [h.apply_edit_eq_ok_iff]
  constructor
  · constructor
    · rintro ⟨_, _, -, -, ha, -⟩
      have hfree := ha.isFree
      rw [Column.isFree, Bool.or_eq_true, beq_iff_eq, beq_iff_eq] at hfree
      exact ⟨ha.allows, ha.ne, hfree⟩
    · rintro ⟨hallows, hne, hfree⟩
      have hfree : (c.column gate.col).isFree row = true := by
        rwa [Column.isFree, Bool.or_eq_true, beq_iff_eq, beq_iff_eq]
      exact ⟨_, _, rfl, hcol, ⟨hgate, hrow, hallows, hne, hfree⟩, rfl⟩
  · rintro _ _ ⟨rfl, -, ha, rfl⟩
    refine ⟨rfl, ?_, fun col hne => by rw [column_withColumn hcol, if_neg hne]⟩
    rw [column_withColumn hcol, if_pos rfl]
    exact ha.attached (h.tidy gate.col)

/-- The first control of the stretched gate comes back from row 0 to row 3, and row 0 is free. -/
theorem link_iff_stretched :
    stretched.EditReachable ∧ stretched.contains ⟨2, 0⟩ = true ∧ 3 < 5 ∧
      Link.control.Allows (stretched.node ⟨2, 0⟩) 3 ∧ stretched.reading ⟨3, 0⟩ = .empty ∧
      ∃ c', stretched.apply 0 (.attachControl 2 3) = .ok (c', some 3) ∧
        (stretched.column 0).Attached .control 2 3 (c'.column 0) ∧
        c'.reading ⟨0, 0⟩ = .empty ∧ c'.reading ⟨3, 0⟩ = .control := by
  have hcell : stretched.contains ⟨2, 0⟩ = true := rfl
  have hallows : Link.control.Allows (stretched.node ⟨2, 0⟩) 3 := by decide +kernel
  have hempty : stretched.reading ⟨3, 0⟩ = .empty := by decide +kernel
  have hold : Link.control.row? ((stretched.column 0).node 2) = some 0 := by decide +kernel
  obtain ⟨hiff, hok⟩ := link_iff editReachable_stretched .control hcell (show 3 < 5 by decide)
  obtain ⟨c', told, hlink⟩ := hiff.2 ⟨hallows, by decide, .inl hempty⟩
  obtain ⟨rfl, hattached, -⟩ := hok c' told hlink
  exact ⟨editReachable_stretched, hcell, by decide, hallows, hempty, c', hlink, hattached,
    hattached.reading_old 0 hold, hattached.reading_row⟩

/-! ### Dropping a new link -/

/-- The circuit `c'` shows nothing in a cell, and otherwise what `c` shows, with the same
program. -/
structure FreedAt (c : Circuit n d) (cell : Cell) (c' : Circuit n d) : Prop where
  reading_cell : c'.reading cell = .empty
  reading_other : ∀ other, other ≠ cell → c'.reading other = c.reading other
  program_eq : c'.program = c.program

theorem FreedAt.of_alike {cell : Cell} {e : Circuit n d} (h : c.FreedAt cell e)
    (halike : c'.Alike e) : c.FreedAt cell c' where
  reading_cell := ((halike cell.col).reading_eq cell.row).trans h.reading_cell
  reading_other other hne :=
    ((halike other.col).reading_eq other.row).trans (h.reading_other other hne)
  program_eq := halike.looksLike.program_eq.trans h.program_eq

/-- The circuit in which a free row of a column has been emptied. -/
def withEmpty (c : Circuit n d) (cell : Cell) : Circuit n d :=
  c.withColumn cell.col ((c.column cell.col).clear cell.row)

section

variable {l : Link} {gate row col : Nat}

theorem EditReachable.node_withEmpty (h : c.EditReachable) (hcol : col < d)
    (ha : (c.column col).Attachable l gate row) (cell : Cell) :
    (c.withEmpty ⟨row, col⟩).node cell =
      if cell = ⟨row, col⟩ then .blank row else c.node cell := by
  refine node_withColumn hcol (fun r => ?_) cell
  rw [ha.node_clear_row (h.tidy col)]
  split_ifs with hr
  · rw [hr]
  · rfl

theorem EditReachable.reading_withEmpty (h : c.EditReachable) (hcol : col < d)
    (ha : (c.column col).Attachable l gate row) (cell : Cell) :
    (c.withEmpty ⟨row, col⟩).reading cell =
      if cell = ⟨row, col⟩ then .empty else c.reading cell := by
  obtain ⟨r, k⟩ := cell
  rw [reading, withEmpty, column_withColumn hcol]
  simp only [Cell.mk.injEq]
  by_cases hk : k = col
  · rw [if_pos hk, ha.reading_clear_row (h.tidy col), reading, hk]
    by_cases hr : r = row <;> simp [hr]
  · simp [hk, reading]

/-- A free row has no line in the program. -/
theorem EditReachable.freedAt_withEmpty (h : c.EditReachable) (hcol : col < d)
    (ha : (c.column col).Attachable l gate row) :
    c.FreedAt ⟨row, col⟩ (c.withEmpty ⟨row, col⟩) where
  reading_cell := by rw [h.reading_withEmpty hcol ha, if_pos rfl]
  reading_other other hne := by rw [h.reading_withEmpty hcol ha, if_neg hne]
  program_eq := by
    have hlines : (c.withEmpty ⟨row, col⟩).lineAt = c.lineAt := by
      funext cell
      by_cases hcell : cell = ⟨row, col⟩
      · have hnull : (c.node cell).kind.isNull = true := by
          rw [hcell, Node.isNull_kind]
          exact Column.isNull_of_isFree ha.isFree
        have hblank : (c.withEmpty ⟨row, col⟩).node cell = .blank row := by
          rw [h.node_withEmpty hcol ha, if_pos hcell]
        rw [lineAt_of_isNull hnull, lineAt_of_blank hblank]
      · rw [lineAt, h.node_withEmpty hcol ha, if_neg hcell, lineAt]
    rw [program, program, programLines_eq, programLines_eq, hlines]
    rfl

/-- A cell that holds nothing is empty already. -/
theorem EditReachable.withEmpty_eq (h : c.EditReachable)
    (ha : (c.column col).Attachable l gate row) (hempty : (c.node ⟨row, col⟩).kind = .empty) :
    c.withEmpty ⟨row, col⟩ = c := by
  rw [withEmpty, ha.clear_row_eq (h.tidy col) ((Node.kind_eq_plain_iff rfl).1 hempty),
    withColumn_column]

end

/-- Unlinking undoes linking.  A gate without controls that is given one and loses it again leaves
the circuit as it was, and so does, as far as can be seen, a swap that is given a partner and parted
from it; but for the linked cell, which shows nothing in the end also where it held a passing
wire. -/
theorem unlink_restores (h : c.EditReachable) {gate : Cell} {row : Nat} {told : Option Nat} :
    ((c.node gate).controls = [] →
      c.apply gate.col (.attachControl gate.row row) = .ok (c', told) →
      ∃ e, c'.apply gate.col (.detachControls gate.row) = .ok (e, none) ∧
        ((c.node ⟨row, gate.col⟩).kind = .empty → e = c) ∧
        (∀ cell, cell ≠ ⟨row, gate.col⟩ → e.node cell = c.node cell) ∧
        c.FreedAt ⟨row, gate.col⟩ e) ∧
    ((c.node gate).partner = none →
      c.apply gate.col (.attachPartner gate.row row) = .ok (c', told) →
      ∃ e, Editor.attempt c' (.toggleSwap gate) = .ok (e, none) ∧
        ((c.node ⟨row, gate.col⟩).kind = .empty → e.LooksLike c) ∧
        c.FreedAt ⟨row, gate.col⟩ e) := by
  have htidy := h.tidy gate.col
  constructor
  · intro hcontrols hlink
    obtain ⟨-, hcol, ha, rfl⟩ := h.apply_edit_eq_ok_iff (l := .control).1 hlink
    refine ⟨c.withEmpty ⟨row, gate.col⟩, ?_, h.withEmpty_eq ha, fun cell hne => ?_,
      h.freedAt_withEmpty hcol ha⟩
    · refine edit_eq_ok_iff.2 ⟨hcol, (c.column gate.col).clear row, ?_, ?_⟩
      · rw [column_withColumn hcol, if_pos rfl, Column.apply,
          ha.detachControls_eq_ok htidy hcontrols]
        rfl
      · rw [withColumn_withColumn, withEmpty]
    · rw [h.node_withEmpty hcol ha, if_neg hne]
  · intro hpartner hlink
    obtain ⟨-, hcol, ha, rfl⟩ := h.apply_edit_eq_ok_iff (l := .partner).1 hlink
    let restored := ((c.column gate.col).withLink .partner gate.row row).rewritten gate.row
      (c.node gate) []
    have halike : (c.withColumn gate.col restored).Alike (c.withEmpty ⟨row, gate.col⟩) := by
      intro k
      rw [withEmpty, column_withColumn hcol, column_withColumn hcol]
      split_ifs with hk
      · exact ha.alike_restored htidy hpartner
      · exact .refl _
    refine ⟨_, ?_, fun hempty => ?_, (h.freedAt_withEmpty hcol ha).of_alike halike⟩
    · rw [Editor.attempt, edit_eq_ok_iff]
      refine ⟨hcol, _, ?_, (withColumn_withColumn ..).symm⟩
      rw [column_withColumn hcol, if_pos rfl, ha.toggleSwap_eq_ok htidy hpartner]
      rfl
    · rw [h.withEmpty_eq ha hempty] at halike
      exact halike.looksLike

/-- A swap alone in row 0, a controlled X in row 3 whose control has moved away over row 2, and an X
in row 4. -/
def spread : Circuit 6 1 :=
  ((((blank.after (.command (.place ⟨0, 0⟩ .swap []))).after
    (.command (.place ⟨3, 0⟩ (.plain .x) []))).after
    (.edit 0 (.attachControl 3 2))).after
    (.command (.moveControl ⟨3, 0⟩ .up))).after
    (.command (.place ⟨4, 0⟩ (.plain .x) []))

theorem editReachable_spread : spread.EditReachable :=
  ((((EditReachable.blank.after _ rfl).after _ rfl).after _ rfl).after _ rfl).after _ rfl

/-- The X is controlled from the passing wire in row 2 and then not any more, and the swap is given
the empty row 5 as its partner and parted from it. -/
theorem unlink_restores_spread :
    spread.EditReachable ∧
      (spread.node ⟨4, 0⟩).controls = [] ∧ (spread.node ⟨2, 0⟩).kind = .trace ∧
      (spread.node ⟨0, 0⟩).partner = none ∧ (spread.node ⟨5, 0⟩).kind = .empty ∧
      (∃ c' e, spread.apply 0 (.attachControl 4 2) = .ok (c', some 2) ∧
        c'.apply 0 (.detachControls 4) = .ok (e, none) ∧ spread.FreedAt ⟨2, 0⟩ e) ∧
      ∃ c' e, spread.apply 0 (.attachPartner 0 5) = .ok (c', some 5) ∧
        Editor.attempt c' (.toggleSwap ⟨0, 0⟩) = .ok (e, none) ∧ e.LooksLike spread := by
  have hcontrols : (spread.node ⟨4, 0⟩).controls = [] := by decide +kernel
  have htrace : (spread.node ⟨2, 0⟩).kind = .trace := by decide +kernel
  have hpartner : (spread.node ⟨0, 0⟩).partner = none := by decide +kernel
  have hempty : (spread.node ⟨5, 0⟩).kind = .empty := by decide +kernel
  have hcontrol : (spread.column 0).Attachable .control 4 2 :=
    ⟨by decide, by decide, by decide +kernel, by decide, by decide +kernel⟩
  have hswap : (spread.column 0).Attachable .partner 0 5 :=
    ⟨by decide, by decide, by decide +kernel, by decide, by decide +kernel⟩
  have hlink : spread.apply 0 (.attachControl 4 2) = .ok (_, some 2) :=
    (editReachable_spread.apply_edit_eq_ok_iff (l := .control)).2 ⟨rfl, by decide, hcontrol, rfl⟩
  have hlink' : spread.apply 0 (.attachPartner 0 5) = .ok (_, some 5) :=
    (editReachable_spread.apply_edit_eq_ok_iff (l := .partner)).2 ⟨rfl, by decide, hswap, rfl⟩
  obtain ⟨e, hok, -, -, hfreed⟩ :=
    (unlink_restores editReachable_spread).1 hcontrols hlink
  obtain ⟨e', hok', hlooks, -⟩ :=
    (unlink_restores editReachable_spread).2 hpartner hlink'
  exact ⟨editReachable_spread, hcontrols, htrace, hpartner, hempty, ⟨_, e, hlink, hok, hfreed⟩,
    _, e', hlink', hok', hlooks hempty⟩

end Circuit

end QuantumCircuit

import QuantumCircuit.Proofs.Deletion
import QuantumCircuit.Proofs.Marks
import QuantumCircuit.Proofs.Search

/-!
# Toggling where there is no gate

A cell that only plays a part in a link of another gate cannot be toggled: it is no empty cell, and
no gate that could be deleted.  But what is compared is the symbol in the cell, and a control mark
is one.  Toggling the kind of control marks on such a mark deletes the gate that it belongs to,
while the same cell without the mark refuses it.

* `Column.toggleGate_of_link`, `Column.Tidy.toggleGate_of_mark` : what becomes of a toggle in a row
  that is part of a link;
* `Editor.toggleGate_on_link` : the same of the command, in an edited circuit;
* `Editor.mark_toggles_gate` : two circuits that look the same, of which one loses its gate.
-/

namespace QuantumCircuit

/-- Why a cell that plays a part in a link is not toggled. -/
def EditError.ofLink {Place : Type} (place : Place) (reading kind : Kind) : EditError Place :=
  if kind = .trace ∧ reading = .trace then .notRemovable place reading else .occupied place reading

theorem EditError.map_ofLink {α β : Type} (f : α → β) (place : α) (reading kind : Kind) :
    (ofLink place reading kind).map f = ofLink (f place) reading kind := by
  unfold ofLink
  split_ifs <;> rfl

theorem Symbol.isNull_iff {s : Symbol} :
    s.isNull = true ↔ s = .empty ∨ s = .control ∨ s = .trace := by
  cases s <;> decide

/-- The kind of a mark is not the kind under any other. -/
theorem Kind.symbol_eq_iff {k : Kind} {s : Symbol} (hs : s.isNull = true) :
    k.symbol = s ↔ k = .plain s := by
  constructor
  · rintro rfl
    cases k with
    | plain s => rfl
    | rotated a => cases a <;> cases hs
    | controlled t => cases t <;> cases hs
    | toffoli => cases hs
  · rintro rfl
    rfl

namespace Column

variable {n : Nat} {c : Column n} {row : Nat} {kind : Kind}

/-- Where a row shows something, only what it holds itself is compared. -/
theorem toggleGate_of_reading (hrow : row < n) (hreading : c.reading row ≠ .empty) :
    c.toggleGate row kind =
      if (c.node row).symbol ≠ .empty ∧ (c.node row).symbol = kind.symbol then c.delete row
      else .error (c.occupied row) := by
  rw [toggleGate, checkRow, if_pos hrow]
  change (if _ then _ else _) = _
  rw [if_neg (by simpa using hreading)]
  simp only [Bool.and_eq_true, bne_iff_ne, beq_iff_eq, ne_eq,
    Node.kind_eq_plain_iff (s := .empty) rfl]

/-- A row that plays a part in a link is not toggled, unless a control mark in it is. -/
theorem toggleGate_of_link (hrow : row < n) (hnull : (c.node row).symbol.isNull = true)
    (hreading : c.reading row ≠ .empty)
    (hmark : kind = .control → (c.node row).symbol ≠ .control) :
    c.toggleGate row kind = .error (.ofLink row (c.reading row) kind) := by
  rw [toggleGate_of_reading hrow hreading, EditError.ofLink]
  by_cases htrace : kind = .trace ∧ c.reading row = .trace
  · obtain ⟨rfl, hshown⟩ := htrace
    have hs := reading_eq_trace_iff.1 hshown
    rw [if_pos ⟨by rw [hs]; decide, hs⟩, delete_of_trace hrow hshown, if_pos ⟨rfl, hshown⟩]
  · rw [if_neg htrace, if_neg, occupied]
    rintro ⟨hne, hsame⟩
    have hkind := (Kind.symbol_eq_iff hnull).1 hsame.symm
    rcases Symbol.isNull_iff.1 hnull with hs | hs | hs
    · exact hne hs
    · exact hmark (by rw [hkind, hs]) hs
    · exact htrace ⟨by rw [hkind, hs], reading_eq_trace_iff.2 hs⟩

/-- Toggling a control mark deletes the gate that it belongs to. -/
theorem Tidy.toggleGate_of_mark (h : c.Tidy) (hrow : row < n)
    (hmark : (c.node row).symbol = .control) :
    ∃ gate, row ∈ (c.node gate).controls ∧ (c.node gate).symbol.isNull = false ∧
      c.toggleGate row .control = .ok (c.deleteGate gate) := by
  have hreading : c.reading row = .control := reading_eq_control_iff.2 (.inl hmark)
  obtain ⟨gate, hgate⟩ := h.controller?_of_reading hreading
  have hmem := (controller?_eq_some hgate).2
  have hlinks := List.ne_nil_of_mem (Node.mem_links_of_mem_controls hmem)
  refine ⟨gate, hmem, h.isNull_of_links_ne_nil hlinks, ?_⟩
  rw [toggleGate_of_reading hrow (by rw [hreading]; decide),
    if_pos ⟨by rw [hmark]; decide, by rw [hmark]; rfl⟩, delete_of_control hrow hreading hgate]

end Column

namespace Editor

variable {n d : Nat} {e : Editor n d}

theorem attempt_toggleGate (e : Editor n d) (cell : Cell) (kind : Kind) :
    attempt e.circuit (.toggleGate cell kind) =
      e.circuit.edit cell fun column => silently (column.toggleGate cell.row kind) := rfl

/-- A cell that plays a part in a link is not toggled, unless a control mark in it is. -/
theorem refuses_toggleGate_of_link {cell : Cell} {kind : Kind}
    (hcell : e.circuit.contains cell = true) (hnull : (e.circuit.node cell).symbol.isNull = true)
    (hreading : e.circuit.reading cell ≠ .empty)
    (hmark : kind = .control → (e.circuit.node cell).symbol ≠ .control) :
    e.Refuses (.toggleGate cell kind) (.ofLink cell (e.circuit.reading cell) kind) := by
  obtain ⟨hrow, hcol⟩ := Circuit.contains_iff.1 hcell
  have herror := Column.toggleGate_of_link hrow hnull hreading hmark
  have hrefused := refuses_of_edit hcol (attempt_toggleGate e cell kind) (congrArg silently herror)
  rwa [EditError.map_ofLink] at hrefused

/-- Toggling a control mark deletes the gate that it belongs to. -/
theorem perform_toggleGate_of_mark (h : e.circuit.EditReachable) {cell : Cell}
    (hcell : e.circuit.contains cell = true) (hmark : (e.circuit.node cell).symbol = .control) :
    ∃ gate circuit, cell.row ∈ (e.circuit.node ⟨gate, cell.col⟩).controls ∧
      e.perform (.toggleGate cell .control) = ({ e with circuit, status := "" }, .ok none) ∧
      e.circuit.DeletedAt ⟨gate, cell.col⟩
        (Column.farEnd (e.circuit.node ⟨gate, cell.col⟩) gate) circuit := by
  obtain ⟨hrow, hcol⟩ := Circuit.contains_iff.1 hcell
  obtain ⟨gate, hmem, hgate, hok⟩ := (h.tidy cell.col).toggleGate_of_mark hrow hmark
  have hattempt := (attempt_toggleGate e cell .control).trans
    (Circuit.edit_eq_ok_iff.2 ⟨hcol, _, congrArg silently hok, rfl⟩)
  have hcol' : (⟨gate, cell.col⟩ : Cell).col < d := hcol
  exact ⟨gate, _, hmem, by rw [perform, hattempt], Circuit.deletedAt_withColumn h hcol' hgate⟩

/-- What becomes of a toggle in a cell that shows a control, a passing wire or a swap and holds no
gate, in an edited circuit.  It is refused, and nothing changes, whatever kind is toggled, except
that of control marks in a cell that holds one.  For all other kinds it is refused alike in circuits
that differ in control marks only.  The exception deletes the gate that the mark belongs to. -/
theorem toggleGate_on_link (h : e.circuit.EditReachable) {cell : Cell}
    (hcell : e.circuit.contains cell = true) (hnull : (e.circuit.node cell).kind.isNull = true)
    (hreading : e.circuit.reading cell ∈ [Kind.control, .trace, .swap]) :
    (∀ kind, ¬ (kind = .control ∧ (e.circuit.node cell).kind = .control) →
      e.Refuses (.toggleGate cell kind)
        (if kind = .trace ∧ e.circuit.reading cell = .trace
          then .notRemovable cell (e.circuit.reading cell)
          else .occupied cell (e.circuit.reading cell))) ∧
    (∀ kind, kind ≠ .control → ∀ e' : Editor n d, e.circuit.Alike e'.circuit → ∀ fault,
      e.Refuses (.toggleGate cell kind) fault ↔ e'.Refuses (.toggleGate cell kind) fault) ∧
    ((e.circuit.node cell).kind = .control →
      ∃ gate circuit, cell.row ∈ (e.circuit.node ⟨gate, cell.col⟩).controls ∧
        e.perform (.toggleGate cell .control) = ({ e with circuit, status := "" }, .ok none) ∧
        e.circuit.DeletedAt ⟨gate, cell.col⟩
          (Column.farEnd (e.circuit.node ⟨gate, cell.col⟩) gate) circuit) := by
  have hshown : e.circuit.reading cell ≠ .empty := by
    intro hempty
    rw [hempty] at hreading
    revert hreading
    decide
  rw [Node.isNull_kind] at hnull
  have hcontrol := Node.kind_eq_plain_iff (x := e.circuit.node cell) (s := .control) rfl
  refine ⟨fun kind hkind => ?_, fun kind hkind e' halike fault => ?_, fun hmark => ?_⟩
  · exact refuses_toggleGate_of_link hcell hnull hshown fun heq hs => hkind ⟨heq, hcontrol.2 hs⟩
  · have hreading' : e'.circuit.reading cell = e.circuit.reading cell :=
      ((halike cell.col).reading_eq cell.row).symm
    have hnull' : (e'.circuit.node cell).symbol.isNull = true :=
      ((halike cell.col).same (·.symbol.isNull) (fun _ => rfl) cell.row).symm.trans hnull
    have hrefused := refuses_toggleGate_of_link hcell hnull hshown (absurd · hkind)
    have hrefused' := refuses_toggleGate_of_link (e := e') hcell hnull' (hreading' ▸ hshown)
      (absurd · hkind)
    rw [hreading'] at hrefused'
    constructor
    · intro h
      rwa [← hrefused.unique h]
    · intro h
      rwa [← hrefused'.unique h]
  · exact perform_toggleGate_of_mark h hcell (hcontrol.1 hmark)

/-- A controlled X in the lower of two rows, just linked to the row above it. -/
def unturned : Editor 2 1 where
  circuit := (Circuit.blank.after (.command (.place ⟨1, 0⟩ (.plain .x) []))).after
    (.command (.toggleControl ⟨1, 0⟩))
  cursor := ⟨0, 0⟩
  rotationStep := .pi
  status := ""

/-- The same after a turn by zero, which leaves a mark in the row of the control. -/
def turned : Editor 2 1 :=
  { unturned with circuit := unturned.circuit.after (.command (.rotate ⟨1, 0⟩ (.zero false))) }

theorem editReachable_turned : turned.circuit.EditReachable := by
  dsimp only [turned, unturned]
  exact ((Circuit.EditReachable.blank.after _ rfl).after _ rfl).after _ rfl

theorem alike_turned : turned.circuit.Alike unturned.circuit := by decide +kernel

/-- An X cannot be toggled in the row of the control, whether the row holds a mark or not, and the
kind of control marks toggles the gate where there is a mark. -/
theorem toggleGate_on_link_turned :
    turned.circuit.EditReachable ∧ turned.circuit.contains ⟨0, 0⟩ = true ∧
      (turned.circuit.node ⟨0, 0⟩).kind.isNull = true ∧
      turned.circuit.reading ⟨0, 0⟩ ∈ [Kind.control, .trace, .swap] ∧
      turned.Refuses (.toggleGate ⟨0, 0⟩ (.plain .x)) (.occupied ⟨0, 0⟩ .control) ∧
      unturned.Refuses (.toggleGate ⟨0, 0⟩ (.plain .x)) (.occupied ⟨0, 0⟩ .control) ∧
      ∃ gate circuit, 0 ∈ (turned.circuit.node ⟨gate, 0⟩).controls ∧
        turned.perform (.toggleGate ⟨0, 0⟩ .control) =
          ({ turned with circuit, status := "" }, .ok none) ∧
        circuit.node ⟨gate, 0⟩ = .blank gate := by
  have hcell : turned.circuit.contains ⟨0, 0⟩ = true := rfl
  have hmark : (turned.circuit.node ⟨0, 0⟩).kind = .control := by decide +kernel
  have hnull : (turned.circuit.node ⟨0, 0⟩).kind.isNull = true := by
    rw [hmark]
    rfl
  have hreading : turned.circuit.reading ⟨0, 0⟩ = .control := by decide +kernel
  have hshown : turned.circuit.reading ⟨0, 0⟩ ∈ [Kind.control, .trace, .swap] := by
    rw [hreading]
    decide
  obtain ⟨hrefused, halike, hdeleted⟩ :=
    toggleGate_on_link editReachable_turned hcell hnull hshown
  have hx := hrefused (.plain .x) (by decide)
  rw [if_neg (by decide), hreading] at hx
  obtain ⟨gate, circuit, hmem, hok, hgone⟩ := hdeleted hmark
  exact ⟨editReachable_turned, hcell, hnull, hshown, hx,
    (halike (.plain .x) (by decide) unturned alike_turned _).1 hx, gate, circuit, hmem, hok,
    hgone.node_within gate (Column.within_left _ _)⟩

/-- The row of the control shows the same in both circuits and holds a gate in neither.  Toggling
the kind of control marks there is refused in the one, and empties the other. -/
theorem mark_toggles_gate :
    turned.circuit.EditReachable ∧ turned.circuit.contains ⟨0, 0⟩ = true ∧
      turned.circuit.reading ⟨0, 0⟩ = .control ∧
      (turned.circuit.node ⟨0, 0⟩).kind.isNull = true ∧
      (∀ fault, ¬ turned.Refuses (.toggleGate ⟨0, 0⟩ .control) fault) ∧
      (turned.perform (.toggleGate ⟨0, 0⟩ .control)).1.circuit.reading ⟨1, 0⟩ ≠
        turned.circuit.reading ⟨1, 0⟩ ∧
      turned.circuit.Alike unturned.circuit ∧
      unturned.Refuses (.toggleGate ⟨0, 0⟩ .control) (.occupied ⟨0, 0⟩ .control) := by
  have hmark : (turned.circuit.node ⟨0, 0⟩).kind = .control := by decide +kernel
  have hok : (turned.perform (.toggleGate ⟨0, 0⟩ .control)).2 = .ok none := by decide +kernel
  have hempty : (unturned.circuit.node ⟨0, 0⟩).symbol = .empty := by decide +kernel
  have hreading : unturned.circuit.reading ⟨0, 0⟩ = .control := by decide +kernel
  have hrefused : unturned.Refuses (.toggleGate ⟨0, 0⟩ .control)
      (.ofLink ⟨0, 0⟩ (unturned.circuit.reading ⟨0, 0⟩) .control) :=
    refuses_toggleGate_of_link rfl (by rw [hempty]; rfl) (by rw [hreading]; decide)
      fun _ => by rw [hempty]; decide
  rw [EditError.ofLink, if_neg (by decide), hreading] at hrefused
  refine ⟨editReachable_turned, rfl, by decide +kernel, by rw [hmark]; rfl, fun fault h => ?_,
    by decide +kernel, alike_turned, hrefused⟩
  rw [Refuses] at h
  rw [h] at hok
  cases hok

end Editor

end QuantumCircuit

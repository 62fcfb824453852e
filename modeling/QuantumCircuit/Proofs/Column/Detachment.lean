import QuantumCircuit.Proofs.Column.Alike
import QuantumCircuit.Proofs.Column.Attachment

/-!
# Dropping a new link

A gate is linked to a row for the first time, and then put back as it was.  All links of the column
before are links of it in between (`Attachable.mem_links_withLink`), so every passing wire is passed
all the time, and is not taken away with the link.  What remains of the detour is that the linked
row is empty and that the other controls of the gate have their marks
(`Attachable.node_restored`).

* `Attachable.detachControls_eq_ok` : dropping the only control leaves the column as it was, with
  the linked row emptied;
* `Attachable.toggleSwap_eq_ok` : parting a swap leaves a column like that.
-/

namespace QuantumCircuit

theorem Node.dropControls_eq {x : Node} (h : x.controls = []) :
    { x with control := none, secondControl := none } = x := by
  obtain ⟨hfirst, hsecond⟩ := controls_eq_nil_iff.1 h
  cases x
  simp_all

theorem Node.dropPartner_eq {x : Node} (h : x.partner = none) : { x with partner := none } = x := by
  cases x
  simp_all

theorem Link.mem_controls_set {x : Node} {l : Link} {row q : Nat}
    (h : q ∈ (l.set x (some row)).controls) : q ∈ x.controls ∨ q = row := by
  obtain ⟨m, hne, hm⟩ := mem_controls_iff.1 h
  rw [row?_set] at hm
  split_ifs at hm with heq
  · exact .inr (Option.some.inj hm).symm
  · exact .inl (mem_controls_iff.2 ⟨m, hne, hm⟩)

namespace Column

variable {n : Nat} {c c' : Column n}

/-- The row of a control holds nothing or its mark. -/
theorem Tidy.node_of_mem_controls (h : c.Tidy) {gate r : Nat} (hmem : r ∈ (c.node gate).controls) :
    c.node r = .blank r ∨ c.node r = .controlMark r := by
  have hlink := Node.mem_links_of_mem_controls hmem
  rw [h.eq_ofSymbol r (h.isNull_of_mem hlink)]
  rcases h.symbol_of_mem hlink with hs | hs <;> rw [hs]
  · exact .inl (by rw [Node.blank])
  · exact .inr (by rw [Node.controlMark])

namespace Attachable

variable {l : Link} {gate row : Nat}

/-- Emptying a free row changes nothing else. -/
theorem node_clear_row (ha : c.Attachable l gate row) (h : c.Tidy) (r : Nat) :
    (c.clear row).node r = if r = row then .blank r else c.node r := by
  by_cases hr : r < n
  · exact node_clear_of_links_nil (h.links_of_isNull (isNull_of_isFree ha.isFree)) hr
  · rw [node_of_le _ (Nat.not_lt.1 hr), node_of_le _ (Nat.not_lt.1 hr), ite_self]

/-- All other rows show what they showed. -/
theorem reading_clear_row (ha : c.Attachable l gate row) (h : c.Tidy) (r : Nat) :
    (c.clear row).reading r = if r = row then .empty else c.reading r := by
  have hrow : ∀ m : Link, m.row? (c.node row) = none :=
    Link.row?_of_links_nil (h.links_of_isNull (isNull_of_isFree ha.isFree))
  have hlinks : ∀ other (m : Link), m.row? ((c.clear row).node other) = m.row? (c.node other) := by
    intro other m
    rw [ha.node_clear_row h]
    split_ifs with hother
    · rw [hother, hrow, Link.row?_of_links_nil (Node.links_blank row)]
    · rfl
  split_ifs with hr
  · rw [hr]
    refine (h.clear row).reading_eq_empty ?_ fun other hmem => ?_
    · rw [ha.node_clear_row h, if_pos rfl]
      exact .inl rfl
    · obtain ⟨m, hm⟩ := Link.mem_links_iff.1 hmem
      rw [hlinks] at hm
      exact h.not_mem_of_isFree ha.isFree other (Link.mem_links hm)
  · refine h.reading_eq_of_row?_iff (h.clear row) (fun other m => by rw [hlinks]) fun _ => ?_
    rw [ha.node_clear_row h, if_neg hr]

/-- A row that holds nothing is empty already. -/
theorem clear_row_eq (ha : c.Attachable l gate row) (h : c.Tidy)
    (hempty : (c.node row).symbol = .empty) : c.clear row = c := by
  refine ext_node fun r _ => ?_
  rw [ha.node_clear_row h]
  split_ifs with hr
  · rw [hr, h.eq_ofSymbol row (by rw [hempty]; rfl), hempty, Node.blank]
  · rfl

/-- A new link replaces none. -/
theorem mem_links_withLink (ha : c.Attachable l gate row) (h : c.Tidy)
    (hnew : l.row? (c.node gate) = none) {other q : Nat} (hmem : q ∈ (c.node other).links) :
    q ∈ ((c.withLink l gate row).node other).links := by
  have hq : q ≠ row := by
    rintro rfl
    exact h.not_mem_of_isFree ha.isFree other hmem
  obtain ⟨m, hm⟩ := Link.mem_links_iff.1 hmem
  exact Link.mem_links ((ha.row?_iff h hq (by simp [hnew]) other m).2 hm)

/-- The gate can be put back as it was. -/
theorem fits_restored (ha : c.Attachable l gate row) (h : c.Tidy)
    (hnew : l.row? (c.node gate) = none) : (c.withLink l gate row).Fits gate (c.node gate) where
  row_lt := ha.gate_lt
  controlsAct := h.controlsAct gate
  nodup_links := h.nodup_links gate
  lt_of_mem _ hl := h.lt_of_mem hl
  ne_of_mem _ hl := h.ne_of_mem hl
  overwritten_of_mem _ hl _ hother :=
    .inr (.inr ((ha.tidy h).owner_eq hother (ha.mem_links_withLink h hnew hl)))

theorem place_restored (ha : c.Attachable l gate row) (h : c.Tidy)
    (hnew : l.row? (c.node gate) = none) :
    (c.withLink l gate row).place gate (c.node gate) =
      .ok ((c.withLink l gate row).rewritten gate (c.node gate) []) := by
  have htidy := ha.tidy h
  rw [place_eq_ok_iff, placeFault?_eq_none_iff]
  refine ⟨ha.fits_restored h hnew, overwrite_eq_rewritten fun r hr => ?_⟩
  have hlink := ha.mem_links_withLink h hnew (Node.mem_links_of_mem_controls hr)
  exact htidy.links_of_isNull (htidy.isNull_of_mem hlink)

/-- A row that is no control of the gate holds what it held before. -/
theorem node_kept (ha : c.Attachable l gate row) (h : c.Tidy)
    (hnew : l.row? (c.node gate) = none) {r : Nat} (hr : r ≠ gate) (hrow : r ≠ row)
    (hold : r ∉ (c.node gate).controls) : (c.withLink l gate row).node r = c.node r := by
  have hadded : r ∉ (l.set (c.node gate) (some row)).controls := fun hmem =>
    (Link.mem_controls_set hmem).elim hold hrow
  rcases ha.node_other h hr hrow hold hadded with ⟨heq, -⟩ | ⟨-, hs, hlost⟩
  · exact heq
  · -- The link that passed the wire before still passes it.
    obtain ⟨other, link, hl, hbetween⟩ := h.spanned hs
    exact absurd ⟨link, ha.mem_links_withLink h hnew hl, hbetween⟩ (hlost other)

/-- No mark of such a row goes when the gate is put back. -/
theorem not_isStale_withLink (ha : c.Attachable l gate row) (h : c.Tidy)
    (hnew : l.row? (c.node gate) = none) {r : Nat} (hr : r ≠ gate) (hrow : r ≠ row)
    (hold : r ∉ (c.node gate).controls) :
    ¬ (c.withLink l gate row).isStale gate (c.node gate).links r = true := by
  intro hstale
  rcases isStale_iff.1 hstale with ⟨hmem, -⟩ | ⟨-, hs, hkeep, hspan⟩
  · rw [ha.node_gate h] at hmem
    exact (Link.mem_controls_set hmem).elim hold hrow
  · rw [ha.node_kept h hnew hr hrow hold] at hs
    obtain ⟨other, link, hl, hbetween⟩ := h.spanned hs
    by_cases hother : other = gate
    · rw [hother] at hl hbetween
      exact hkeep link hl hbetween
    · have hspan' := isSpanned_iff.2
        ⟨other, hother, link, ha.mem_links_withLink h hnew hl, hbetween⟩
      rw [hspan] at hspan'
      cases hspan'

/-- The rows after the gate has been put back. -/
theorem node_restored (ha : c.Attachable l gate row) (h : c.Tidy)
    (hnew : l.row? (c.node gate) = none) (r : Nat) :
    ((c.withLink l gate row).rewritten gate (c.node gate) []).node r =
      if r ∈ (c.node gate).controls then .controlMark r else (c.clear row).node r := by
  by_cases hlt : r < n
  · rw [node_rewritten _ _ _ _ hlt, if_neg List.not_mem_nil, ha.node_clear_row h]
    by_cases hold : r ∈ (c.node gate).controls
    · rw [if_pos hold, if_pos hold]
    rw [if_neg hold, if_neg hold]
    by_cases hr : r = gate
    · rw [if_pos hr, hr, if_neg ha.ne.symm, Node.atRow_self (h.row_node gate)]
    rw [if_neg hr]
    by_cases hrow : r = row
    · rw [if_pos hrow, hrow, ha.node_row, ite_self]
    rw [if_neg hrow, if_neg (ha.not_isStale_withLink h hnew hr hrow hold),
      ha.node_kept h hnew hr hrow hold]
  · have hr := Nat.not_lt.1 hlt
    rw [node_of_le _ hr, node_of_le _ hr, if_neg fun hmem =>
      hlt (h.lt_of_mem (Node.mem_links_of_mem_controls hmem))]

/-! ### Round trips -/

theorem detachControls_eq_ok (ha : c.Attachable .control gate row) (h : c.Tidy)
    (hcontrols : (c.node gate).controls = []) :
    (c.withLink .control gate row).detachControls gate = .ok (c.clear row) := by
  have hfirst : (c.node gate).control = none := (Node.controls_eq_nil_iff.1 hcontrols).1
  have hnode := ha.node_gate h
  have hmem : row ∈ ((c.withLink .control gate row).node gate).controls := by
    rw [hnode]
    exact Node.mem_controls.2 (.inl rfl)
  have hold : { (c.withLink .control gate row).node gate with
      control := none, secondControl := none } = c.node gate := by
    rw [hnode]
    exact Node.dropControls_eq hcontrols
  rw [detachControls, checkRow, if_pos ha.gate_lt]
  show (if _ then _ else _) = _
  rw [if_neg (by simpa using List.ne_nil_of_mem hmem), hold, ha.place_restored h hfirst]
  refine congrArg Except.ok (ext_node fun r _ => ?_)
  rw [ha.node_restored h hfirst, hcontrols, if_neg List.not_mem_nil]

/-- The controls of the gate have marks when it has been put back, which they may have lacked. -/
theorem alike_restored (ha : c.Attachable l gate row) (h : c.Tidy)
    (hnew : l.row? (c.node gate) = none) :
    ((c.withLink l gate row).rewritten gate (c.node gate) []).Alike (c.clear row) := by
  intro r
  rw [ha.node_restored h hnew]
  split_ifs with hmem
  · have hlink := Node.mem_links_of_mem_controls hmem
    have hne : r ≠ row := by
      rintro rfl
      exact h.not_mem_of_isFree ha.isFree gate hlink
    rw [ha.node_clear_row h, if_neg hne]
    rcases h.node_of_mem_controls hmem with hblank | hmark
    · refine .inr ⟨⟨gate, ?_⟩, .inl ⟨rfl, hblank⟩⟩
      have hself : gate ∉ (c.node gate).controls := fun hself =>
        h.ne_of_mem (Node.mem_links_of_mem_controls hself) rfl
      rwa [ha.node_restored h hnew, if_neg hself, ha.node_clear_row h, if_neg ha.ne.symm]
    · exact .inl hmark.symm
  · exact .inl rfl

theorem toggleSwap_eq_ok (ha : c.Attachable .partner gate row) (h : c.Tidy)
    (hpartner : (c.node gate).partner = none) :
    (c.withLink .partner gate row).toggleSwap gate =
      .ok ((c.withLink .partner gate row).rewritten gate (c.node gate) []) := by
  have hnode := ha.node_gate h
  have hold : { (c.withLink .partner gate row).node gate with partner := none } =
      c.node gate := by
    rw [hnode]
    exact Node.dropPartner_eq hpartner
  rw [toggleSwap, checkRow, if_pos ha.gate_lt]
  show (if _ then _ else _) = _
  rw [if_pos (by rw [hnode]; rfl), hold, ha.place_restored h hpartner]

end Attachable

end Column

end QuantumCircuit

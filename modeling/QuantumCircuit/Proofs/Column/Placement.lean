import QuantumCircuit.Proofs.Column.Links

/-!
# What a placement asks for and what it writes

`Fits` collects what a placement asks for, and `placeFault?_eq_none_iff` says that nothing else
is asked.

Whatever the control rows held before, a placement leaves every other row alone or empties it
(`node_overwrite_cases`).  When the control rows have no links of their own, releasing them does
nothing, and the column after the placement can be written down row by row: it is
`rewritten`, where the rows in `fresh` are emptied afterwards.
-/

namespace QuantumCircuit

namespace Column

variable {n : Nat}

/-! ### When a node fits -/

theorem linkFault?_eq_none_iff {c : Column n} {taken links : List Nat} :
    c.linkFault? taken links = none ↔
      links.Nodup ∧ ∀ link ∈ links, link < n ∧ link ∉ taken := by
  induction links generalizing taken with
  | nil => simp [linkFault?]
  | cons link rest ih =>
    simp only [linkFault?, List.contains_iff_mem]
    by_cases hlt : n ≤ link
    · simp only [hlt, if_true, reduceCtorEq, false_iff]
      exact fun h => Nat.not_lt.2 hlt (h.2 link List.mem_cons_self).1
    by_cases hmem : link ∈ taken
    · simp [hlt, hmem]
    · simp only [hlt, hmem, if_false, ih, List.nodup_cons, List.mem_cons]
      constructor
      · rintro ⟨hnodup, h⟩
        refine ⟨⟨fun hlink => (h link hlink).2 (.inl rfl), hnodup⟩, ?_⟩
        rintro l (rfl | hl)
        · exact ⟨Nat.lt_of_not_le hlt, hmem⟩
        · exact ⟨(h l hl).1, fun ht => (h l hl).2 (.inr ht)⟩
      · rintro ⟨⟨hlink, hnodup⟩, h⟩
        refine ⟨hnodup, fun l hl => ⟨(h l (.inr hl)).1, ?_⟩⟩
        rintro (rfl | ht)
        · exact hlink hl
        · exact (h l (.inr hl)).2 ht

/-- The node can be put into the row: its controls act on it, its links are different rows of
the column, and nothing that stays in the column is linked to one of them. -/
structure Fits (c : Column n) (row : Nat) (x : Node) : Prop where
  row_lt : row < n
  controlsAct : x.controlsAct = true
  nodup_links : x.links.Nodup
  lt_of_mem : ∀ link ∈ x.links, link < n
  ne_of_mem : ∀ link ∈ x.links, link ≠ row
  /-- Only nodes that are overwritten are linked to the same rows. -/
  overwritten_of_mem : ∀ link ∈ x.links, ∀ other, link ∈ (c.node other).links →
    other = link ∨ other ∈ x.controls ∨ other = row

theorem placeFault?_eq_none_iff {c : Column n} {row : Nat} {x : Node} :
    c.placeFault? row x = none ↔ c.Fits row x := by
  have hlinked : (∀ link ∈ x.links, ¬ c.isLinked (x.controls ++ [row]) link = true) ↔
      ∀ link ∈ x.links, ∀ other, link ∈ (c.node other).links →
        other = link ∨ other ∈ x.controls ∨ other = row := by
    refine forall₂_congr fun link _ => ?_
    simp only [isLinked_iff, List.mem_append, List.mem_singleton]
    constructor
    · intro h other hmem
      refine Classical.byContradiction fun hno => ?_
      rw [not_or] at hno
      exact h ⟨other, hno.1, hno.2, hmem⟩
    · rintro h ⟨other, hne, hex, hmem⟩
      exact (h other hmem).elim hne hex
  unfold placeFault?
  by_cases hrow : n ≤ row
  · simp only [hrow, if_true, reduceCtorEq, false_iff]
    exact fun h => Nat.not_lt.2 hrow h.row_lt
  by_cases hact : x.controlsAct = true
  · simp only [hrow, hact, if_false, Bool.not_true, Bool.false_eq_true, Option.or_eq_none_iff,
      linkFault?_eq_none_iff, Option.map_eq_none_iff, List.find?_eq_none, hlinked,
      List.mem_singleton]
    constructor
    · rintro ⟨⟨hnodup, h⟩, hover⟩
      exact ⟨Nat.lt_of_not_le hrow, hact, hnodup, fun l hl => (h l hl).1,
        fun l hl => (h l hl).2, hover⟩
    · intro h
      exact ⟨⟨h.nodup_links, fun l hl => ⟨h.lt_of_mem l hl, h.ne_of_mem l hl⟩⟩,
        h.overwritten_of_mem⟩
  · simp only [hrow, hact, if_false, Bool.not_false, if_true, reduceCtorEq, false_iff]
    exact fun h => hact h.controlsAct

theorem place_eq_ok {c d : Column n} {row : Nat} {x : Node} (h : c.place row x = .ok d) :
    c.Fits row x ∧ d = c.overwrite row x :=
  ⟨placeFault?_eq_none_iff.1 (place_eq_ok_iff.1 h).1, (place_eq_ok_iff.1 h).2.symm⟩

/-- A node without links fits into every row. -/
theorem fits_of_links_nil {c : Column n} {row : Nat} {x : Node} (hrow : row < n)
    (hx : x.links = []) : c.Fits row x := by
  have hcontrols := Node.controls_eq_nil_of_links hx
  have hsecond : x.secondControl = none := by
    cases hs : x.secondControl with
    | none => rfl
    | some r =>
      have hmem : r ∈ x.controls := Node.mem_controls.2 (.inr hs)
      rw [hcontrols] at hmem
      cases hmem
  have hact : x.controlsAct = true := by simp [Node.controlsAct, hcontrols, hsecond]
  exact ⟨hrow, hact, by simp [hx], by simp [hx], by simp [hx], by simp [hx]⟩

theorem place_of_links_nil {c : Column n} {row : Nat} {x : Node} (hrow : row < n)
    (hx : x.links = []) : c.place row x = .ok (c.overwrite row x) :=
  place_eq_ok_iff.2 ⟨placeFault?_eq_none_iff.2 (fits_of_links_nil hrow hx), rfl⟩

/-! ### What is written -/

theorem node_release_eq (c : Column n) (row : Nat) (keep : List Nat) (r : Nat) :
    (c.release row keep).node r = if c.isStale row keep r then .blank r else c.node r := by
  by_cases hr : r < n
  · exact c.node_release row keep hr
  · rw [node_of_le _ (Nat.not_lt.1 hr), node_of_le _ (Nat.not_lt.1 hr), ite_self]

theorem release_of_links_nil {c : Column n} {row : Nat} (h : (c.node row).links = [])
    (keep : List Nat) : c.release row keep = c :=
  ext_node fun r _ => by simp [node_release_eq, isStale_of_links_nil h]

theorem foldl_release_of_links_nil {c : Column n} {rows : List Nat}
    (h : ∀ r ∈ rows, (c.node r).links = []) (keep : Nat → List Nat) :
    rows.foldl (fun c r => c.release r (keep r)) c = c := by
  induction rows with
  | nil => rfl
  | cons r rest ih =>
    rw [List.foldl_cons, release_of_links_nil (h r List.mem_cons_self)]
    exact ih fun r hr => h r (List.mem_cons_of_mem _ hr)

/-- Releasing rows empties some rows and leaves the others alone. -/
theorem node_foldl_release (c : Column n) (rows : List Nat) (keep : Nat → List Nat) (r : Nat) :
    (rows.foldl (fun c r => c.release r (keep r)) c).node r = c.node r ∨
      (rows.foldl (fun c r => c.release r (keep r)) c).node r = .blank r := by
  induction rows generalizing c with
  | nil => exact .inl rfl
  | cons q rest ih =>
    rw [List.foldl_cons]
    rcases ih (c.release q (keep q)) with h | h
    · rw [h, node_release_eq]
      split
      · exact .inr rfl
      · exact .inl rfl
    · exact .inr h

theorem node_overwrite_cases (c : Column n) (row : Nat) (x : Node) {r : Nat} (hr : r < n) :
    (r ∈ x.controls ∧ (c.overwrite row x).node r = .controlMark r) ∨
      (r ∉ x.controls ∧ r = row ∧ (c.overwrite row x).node r = x.atRow r) ∨
      (r ∉ x.controls ∧ r ≠ row ∧ ((c.overwrite row x).node r = c.node r ∨
        (c.overwrite row x).node r = .blank r)) := by
  simp only [overwrite, node_write _ _ _ hr, List.contains_iff_mem]
  by_cases hx : r ∈ x.controls
  · exact .inl ⟨hx, if_pos hx⟩
  by_cases hrow : r = row
  · exact .inr (.inl ⟨hx, hrow, by rw [if_neg hx, if_pos hrow]⟩)
  · refine .inr (.inr ⟨hx, hrow, ?_⟩)
    rw [if_neg hx, if_neg hrow]
    exact node_foldl_release c _ _ r

/-- The column with `x` in `row`: the rows in `fresh` are empty, the controls of `x` are marked,
and the marks are gone that only the old node of the row needed. -/
def rewritten (c : Column n) (row : Nat) (x : Node) (fresh : List Nat) : Column n :=
  ofRows fun r =>
    if r ∈ fresh then .blank r
    else if r ∈ x.controls then .controlMark r
    else if r = row then x.atRow r
    else if c.isStale row x.links r then .blank r
    else c.node r

theorem node_rewritten (c : Column n) (row : Nat) (x : Node) (fresh : List Nat) {r : Nat}
    (hr : r < n) :
    (c.rewritten row x fresh).node r =
      if r ∈ fresh then .blank r
      else if r ∈ x.controls then .controlMark r
      else if r = row then x.atRow r
      else if c.isStale row x.links r then .blank r
      else c.node r :=
  node_ofRows hr

theorem overwrite_eq_rewritten {c : Column n} {row : Nat} {x : Node}
    (hx : ∀ r ∈ x.controls, (c.node r).links = []) :
    c.overwrite row x = c.rewritten row x [] := by
  refine ext_node fun r hr => ?_
  rw [node_rewritten c row x [] hr, overwrite, List.foldl_append, List.foldl_cons, List.foldl_nil,
    foldl_release_of_links_nil hx, node_write _ _ _ hr, node_release_eq, if_pos rfl]
  -- Of all the releases only that of the row itself is left.
  simp only [List.contains_iff_mem, List.not_mem_nil, if_false]

/-- Storing a node without links in place of one without links changes nothing else. -/
theorem node_overwrite_of_links_nil {c : Column n} {row : Nat} {x : Node}
    (h : (c.node row).links = []) (hx : x.links = []) {r : Nat} (hr : r < n) :
    (c.overwrite row x).node r = if r = row then x.atRow r else c.node r := by
  have hcontrols := Node.controls_eq_nil_of_links hx
  rw [overwrite_eq_rewritten (by simp [hcontrols]), node_rewritten _ _ _ _ hr, hcontrols,
    isStale_of_links_nil h]
  simp only [List.not_mem_nil, if_false, Bool.false_eq_true]

theorem clear_eq_rewritten (c : Column n) (row : Nat) :
    c.clear row = c.rewritten row (.blank row) [] :=
  overwrite_eq_rewritten (by simp)

/-- Emptying a row without links changes nothing else. -/
theorem node_clear_of_links_nil {c : Column n} {row : Nat} (h : (c.node row).links = [])
    {r : Nat} (hr : r < n) :
    (c.clear row).node r = if r = row then .blank r else c.node r := by
  rw [clear, node_overwrite_of_links_nil h (Node.links_blank row) hr, Node.atRow_blank]

theorem clear_overwrite_eq_rewritten {c : Column n} {row new : Nat} {x : Node}
    (hx : ∀ r ∈ x.controls, (c.node r).links = [])
    (hnew : (c.node new).links = []) (hne : new ≠ row) :
    (c.overwrite row x).clear new = c.rewritten row x [new] := by
  -- The placement puts nothing with links into the new row, so emptying it releases nothing.
  have hlinks : ((c.overwrite row x).node new).links = [] := by
    by_cases hlt : new < n
    · rcases node_overwrite_cases c row x hlt with ⟨-, h⟩ | ⟨-, h, -⟩ | ⟨-, -, h | h⟩
      · rw [h, Node.links_controlMark]
      · exact absurd h hne
      · rw [h, hnew]
      · rw [h, Node.links_blank]
    · rw [node_of_le _ (Nat.not_lt.1 hlt), Node.links_blank]
  refine ext_node fun r hr => ?_
  rw [node_clear_of_links_nil hlinks hr, node_rewritten _ _ _ _ hr,
    overwrite_eq_rewritten hx, node_rewritten _ _ _ _ hr]
  simp only [List.not_mem_nil, if_false, List.mem_singleton]

end Column

end QuantumCircuit

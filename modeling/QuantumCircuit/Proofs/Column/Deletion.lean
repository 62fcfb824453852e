import QuantumCircuit.Proofs.Column.Marked

/-!
# Deleting from a column

Deleting a gate empties the rows from the gate to its far end (`IsFarEnd`) one after the other, and
each of them is released before it is emptied.  `Cleared` says what this leaves: the rows are blank,
and elsewhere some marks are gone and nothing else has changed (`cleared_foldl_clear`, by induction
on the rows).

Which marks are gone depends on the order, but not what the rows of a deleted gate show.  A link
outside the emptied rows, the nearer of two controls say, may have kept its control mark only if it
had an owner, and its owner was the gate (`Cleared.reading_of_link`).
-/

namespace QuantumCircuit

namespace Column

variable {n : Nat} {c c' : Column n}

/-! ### The far end of a gate -/

/-- The row `far` is the far end of the gate `x` in a row: the farthest of its controls, of two
equally far the one further down; without controls its partner; without links its own row. -/
inductive IsFarEnd (x : Node) (row : Nat) : Nat → Prop
  | control {far : Nat} (hmem : far ∈ x.controls)
      (hfar : ∀ other ∈ x.controls, distance row other < distance row far ∨
        distance row other = distance row far ∧ other ≤ far) : IsFarEnd x row far
  | partner {far : Nat} (hcontrols : x.controls = []) (hpartner : x.partner = some far) :
      IsFarEnd x row far
  | own (hlinks : x.links = []) : IsFarEnd x row row

theorem farther_cases (row a b : Nat) :
    farther row a b = b ∧
        (distance row a < distance row b ∨ distance row a = distance row b ∧ a ≤ b) ∨
      farther row a b = a ∧
        (distance row b < distance row a ∨ distance row b = distance row a ∧ b ≤ a) := by
  unfold farther
  split_ifs with h
  · simp only [Bool.or_eq_true, Bool.and_eq_true, decide_eq_true_eq, beq_iff_eq] at h
    exact .inl ⟨rfl, by omega⟩
  · simp only [Bool.or_eq_true, Bool.and_eq_true, decide_eq_true_eq, beq_iff_eq] at h
    exact .inr ⟨rfl, by omega⟩

theorem isFarEnd_farEnd (x : Node) (row : Nat) : IsFarEnd x row (farEnd x row) := by
  cases ha : x.control with
  | none =>
    cases hb : x.secondControl with
    | none =>
      have hcontrols : x.controls = [] := by simp [Node.controls, ha, hb]
      simp only [farEnd, ha, hb]
      cases hp : x.partner with
      | none => exact .own (by simp [Node.links, hcontrols, hp])
      | some p => exact .partner hcontrols hp
    | some b =>
      have hcontrols : x.controls = [b] := by simp [Node.controls, ha, hb]
      simp only [farEnd, ha, hb]
      exact .control (by simp [hcontrols]) (by simp [hcontrols])
  | some a =>
    cases hb : x.secondControl with
    | none =>
      have hcontrols : x.controls = [a] := by simp [Node.controls, ha, hb]
      simp only [farEnd, ha, hb]
      exact .control (by simp [hcontrols]) (by simp [hcontrols])
    | some b =>
      have hcontrols : x.controls = [a, b] := by simp [Node.controls, ha, hb]
      simp only [farEnd, ha, hb]
      rcases farther_cases row a b with ⟨heq, hfar⟩ | ⟨heq, hfar⟩ <;> rw [heq]
      · exact .control (by simp [hcontrols]) (by simpa [hcontrols] using hfar)
      · exact .control (by simp [hcontrols]) (by simpa [hcontrols] using hfar)

theorem IsFarEnd.eq_of_isFarEnd {x : Node} {row far other : Nat} (h : IsFarEnd x row far)
    (hother : IsFarEnd x row other) : other = far := by
  cases h with
  | control hmem hfar =>
    cases hother with
    | control hmem' hfar' =>
      have hle := hfar other hmem'
      have hge := hfar' far hmem
      omega
    | partner hcontrols =>
      rw [hcontrols] at hmem
      cases hmem
    | own hlinks =>
      rw [Node.controls_eq_nil_of_links hlinks] at hmem
      cases hmem
  | partner hcontrols hpartner =>
    cases hother with
    | control hmem' =>
      rw [hcontrols] at hmem'
      cases hmem'
    | partner _ hpartner' => exact Option.some.inj (hpartner'.symm.trans hpartner)
    | own hlinks =>
      have hmem : far ∈ x.links := Node.mem_links.2 (.inr hpartner)
      rw [hlinks] at hmem
      cases hmem
  | own hlinks =>
    cases hother with
    | control hmem' =>
      rw [Node.controls_eq_nil_of_links hlinks] at hmem'
      cases hmem'
    | partner _ hpartner' =>
      have hmem : other ∈ x.links := Node.mem_links.2 (.inr hpartner')
      rw [hlinks] at hmem
      cases hmem
    | own => rfl

theorem isFarEnd_iff {x : Node} {row far : Nat} : IsFarEnd x row far ↔ far = farEnd x row :=
  ⟨(isFarEnd_farEnd x row).eq_of_isFarEnd, fun h => h ▸ isFarEnd_farEnd x row⟩

/-- The row is one of two others or lies between them. -/
def Within (a b row : Nat) : Prop := min a b ≤ row ∧ row ≤ max a b

instance (a b row : Nat) : Decidable (Within a b row) :=
  inferInstanceAs (Decidable (min a b ≤ row ∧ row ≤ max a b))

theorem within_left (a b : Nat) : Within a b a := ⟨Nat.min_le_left .., Nat.le_max_left ..⟩

/-! ### Emptying rows -/

/-- The column `c'` comes from `c` by emptying the rows with `P`: these are blank, and all other
rows are as before, or they have lost a mark. -/
structure Cleared (c : Column n) (P : Nat → Prop) (c' : Column n) : Prop where
  node_of_row : ∀ {r}, P r → c'.node r = .blank r
  node_of_other : ∀ {r}, ¬ P r → c'.node r = c.node r ∨
    (c.node r).symbol.isStructural = true ∧ c'.node r = .blank r

theorem node_clear (c : Column n) (row r : Nat) :
    (c.clear row).node r =
      if r = row then .blank r else if c.isStale row [] r then .blank r else c.node r := by
  by_cases hr : r < n
  · rw [clear_eq_rewritten, node_rewritten _ _ _ _ hr, if_neg List.not_mem_nil,
      if_neg (by simp), Node.links_blank, Node.atRow_blank]
  · rw [node_of_le _ (Nat.not_lt.1 hr), node_of_le _ (Nat.not_lt.1 hr), ite_self, ite_self]

theorem cleared_clear (c : Column n) (row : Nat) : c.Cleared (· = row) (c.clear row) where
  node_of_row {r} hr := by rw [node_clear, if_pos hr]
  node_of_other {r} hr := by
    rw [node_clear, if_neg hr]
    split_ifs with hstale
    · exact .inr ⟨isStructural_of_isStale hstale, rfl⟩
    · exact .inl rfl

theorem cleared_foldl_clear (c : Column n) (rows : List Nat) :
    c.Cleared (· ∈ rows) (rows.foldl clear c) := by
  induction rows generalizing c with
  | nil => exact ⟨fun hr => absurd hr List.not_mem_nil, fun _ => .inl rfl⟩
  | cons q rest ih =>
    have hfirst := c.cleared_clear q
    have hrest := ih (c.clear q)
    -- A row that has become blank stays blank.
    have hblank : ∀ {r}, (c.clear q).node r = .blank r →
        (rest.foldl clear (c.clear q)).node r = .blank r := by
      intro r heq
      by_cases hr : r ∈ rest
      · exact hrest.node_of_row hr
      · exact (hrest.node_of_other hr).elim (·.trans heq) (·.2)
    refine ⟨fun {r} hr => ?_, fun {r} hr => ?_⟩
    · rcases List.mem_cons.1 hr with heq | hmem
      · exact hblank (hfirst.node_of_row heq)
      · exact hrest.node_of_row hmem
    · rw [List.mem_cons, not_or] at hr
      rcases hfirst.node_of_other hr.1 with heq | ⟨hmark, heq⟩
      · rw [← heq]
        exact hrest.node_of_other hr.2
      · exact .inr ⟨hmark, hblank heq⟩

namespace Cleared

variable {P : Nat → Prop} {gate r link : Nat}

/-- The links that are left are links of nodes elsewhere. -/
theorem of_mem_links (h : c.Cleared P c') (hl : link ∈ (c'.node r).links) :
    ¬ P r ∧ link ∈ (c.node r).links := by
  have hr : ¬ P r := by
    intro hr
    rw [h.node_of_row hr] at hl
    simp at hl
  refine ⟨hr, ?_⟩
  rcases h.node_of_other hr with heq | ⟨-, heq⟩ <;> rw [heq] at hl
  · exact hl
  · simp at hl

/-- No node is linked any more to a row that an emptied row was linked to. -/
theorem not_mem_links (h : c.Cleared P c') (htidy : c.Tidy) (hgate : P gate)
    (hl : link ∈ (c.node gate).links) (other : Nat) : link ∉ (c'.node other).links := by
  intro hother
  obtain ⟨hno, hmem⟩ := h.of_mem_links hother
  exact hno (htidy.owner_eq hl hmem ▸ hgate)

/-- A row that an emptied row was linked to shows nothing. -/
theorem reading_of_link (h : c.Cleared P c') (htidy : c.Tidy) (htidy' : c'.Tidy) (hgate : P gate)
    (hl : link ∈ (c.node gate).links) : c'.reading link = .empty := by
  refine htidy'.reading_eq_empty ?_ (h.not_mem_links htidy hgate hl)
  by_cases hlink : P link
  · rw [h.node_of_row hlink]
    exact .inl rfl
  · rcases h.node_of_other hlink with heq | ⟨-, heq⟩ <;> rw [heq]
    · exact htidy.symbol_of_mem hl
    · exact .inl rfl

/-- The row of a gate that is emptied shows nothing. -/
theorem reading_of_gate (h : c.Cleared P c') (htidy : c.Tidy) (hgate : P gate)
    (hnull : (c.node gate).symbol.isNull = false) : c'.reading gate = .empty := by
  refine reading_eq_empty_iff.2 ⟨by rw [h.node_of_row hgate]; rfl, fun other _ hl => ?_⟩
  rw [htidy.isNull_of_mem (h.of_mem_links hl).2] at hnull
  cases hnull

end Cleared

/-! ### Deleting -/

theorem cleared_deleteGate (c : Column n) (gate : Nat) :
    c.Cleared (Within gate (farEnd (c.node gate) gate)) (c.deleteGate gate) := by
  have hrows : ∀ r, r ∈ List.range' (min gate (farEnd (c.node gate) gate))
      (distance gate (farEnd (c.node gate) gate) + 1) ↔
        Within gate (farEnd (c.node gate) gate) r := by
    intro r
    rw [List.mem_range'_1, Within, distance]
    omega
  have h := c.cleared_foldl_clear (List.range' (min gate (farEnd (c.node gate) gate))
    (distance gate (farEnd (c.node gate) gate) + 1))
  exact ⟨fun hr => h.node_of_row ((hrows _).2 hr),
    fun hr => h.node_of_other fun hmem => hr ((hrows _).1 hmem)⟩

theorem kind_ne_plain {x : Node} (h : x.symbol.isNull = false) {s : Symbol}
    (hs : s.isNull = true) : x.kind ≠ .plain s := by
  intro hk
  rw [(Node.kind_eq_plain_iff hs).1 hk, hs] at h
  cases h

/-- A row with a gate shows its kind. -/
theorem reading_of_gate {r : Nat} (h : (c.node r).symbol.isNull = false) :
    c.reading r = (c.node r).kind := by
  rw [reading, if_pos (bne_iff_ne.2 (kind_ne_plain h rfl))]

/-- A row that shows neither nothing nor a mark holds a gate, if it is not the partner of one. -/
theorem isNull_of_reading {r : Nat} (hempty : c.reading r ≠ .empty) (htrace : c.reading r ≠ .trace)
    (hcontrol : c.reading r ≠ .control)
    (hpartner : ¬ (c.reading r = .swap ∧ (c.node r).kind = .empty)) :
    (c.node r).symbol.isNull = false := by
  by_contra hnull
  cases hs : (c.node r).symbol with
  | empty =>
    have hkind : (c.node r).kind = .empty := (Node.kind_eq_plain_iff rfl).2 hs
    unfold reading at hempty hcontrol hpartner
    rw [hkind] at hempty hcontrol hpartner
    split_ifs at hempty hcontrol hpartner <;> simp_all
  | control => exact hcontrol (reading_eq_control_iff.2 (.inl hs))
  | trace => exact htrace (reading_eq_trace_iff.2 hs)
  | _ => exact hnull (by rw [hs]; rfl)

theorem delete_of_empty {row : Nat} (hrow : row < n) (h : c.reading row = .empty) :
    c.delete row = .ok c := by
  rw [delete, checkRow, if_pos hrow, h]
  rfl

theorem delete_of_trace {row : Nat} (hrow : row < n) (h : c.reading row = .trace) :
    c.delete row = .error (.notRemovable row (c.reading row)) := by
  rw [delete, checkRow, if_pos hrow, h]
  rfl

theorem delete_of_partner {row : Nat} (hrow : row < n) (h : c.reading row = .swap)
    (hempty : (c.node row).kind = .empty) :
    c.delete row = .error (.notRemovable row (c.reading row)) := by
  rw [delete, checkRow, if_pos hrow, h, hempty]
  rfl

theorem delete_of_control {row gate : Nat} (hrow : row < n) (h : c.reading row = .control)
    (hgate : c.controller? row = some gate) : c.delete row = .ok (c.deleteGate gate) := by
  rw [delete, checkRow, if_pos hrow, h, hgate]
  rfl

theorem delete_of_gate {row : Nat} (hrow : row < n) (h : (c.node row).symbol.isNull = false) :
    c.delete row = .ok (c.deleteGate row) := by
  rw [delete, checkRow, if_pos hrow, reading_of_gate h]
  dsimp only [Except.bind, bind]
  split
  case h_1 hk => exact absurd hk (kind_ne_plain h rfl)
  case h_2 hk => exact absurd hk (kind_ne_plain h rfl)
  case h_3 hk => exact absurd hk (kind_ne_plain h rfl)
  case h_4 hempty _ _ =>
    rw [if_neg]
    rw [Bool.and_eq_true, beq_iff_eq, beq_iff_eq]
    exact fun hswap => hempty hswap.2

end Column

end QuantumCircuit

import Mathlib.Tactic.SplitIfs
import QuantumCircuit.Proofs.Column.Marked

/-!
# Links to rows that hold something

A row that a node is linked to should hold nothing, or a control mark: then it reads as its part
in the link.  It is `Obstructed` if it holds something else.

What a placement stores can obstruct a row in two ways (`Collides`): the new node stands in a row
that a node which stays is linked to, or the partner of the new node is a row that is not empty.
`obstructed_overwrite` says that there is no other way, and `obstructed_step` that the edits of a
column, which look at the rows first, obstruct nothing.  A wire that passes is never in the way of
a control (`Untraced`), because the row of a new control is written.
-/

namespace QuantumCircuit

/-- The node is what its row shows, whatever is linked to the row. -/
def Node.Covers (x : Node) : Prop := x.symbol ≠ .empty ∧ x.symbol ≠ .control

theorem Node.not_covers_iff {x : Node} :
    ¬ x.Covers ↔ x.symbol = .empty ∨ x.symbol = .control := by
  rw [Covers, not_and_or, not_not, not_not]

/-- What covers its row is a passing wire or a gate. -/
theorem Node.Covers.symbol_cases {x : Node} (h : x.Covers) :
    x.symbol = .trace ∨ x.symbol.isNull = false := by
  obtain ⟨hempty, hcontrol⟩ := h
  cases hs : x.symbol with
  | empty => exact absurd hs hempty
  | control => exact absurd hs hcontrol
  | trace => exact .inl rfl
  | _ => exact .inr rfl

namespace Column

variable {n : Nat} {c c' : Column n} {row r : Nat} {x : Node}

/-- A node is linked to the row, and the row shows something of its own. -/
def Obstructed (c : Column n) (row : Nat) : Prop :=
  (∃ gate, row ∈ (c.node gate).links) ∧ (c.node row).Covers

/-- A placement of `x` in `row` gets in the way of a link to row `r`: it stores something in a row
that a node which stays is linked to, or it links to a row that shows something of its own. -/
def Collides (c : Column n) (row : Nat) (x : Node) (r : Nat) : Prop :=
  (r = row ∧ x.Covers ∧ ∃ gate, gate ≠ row ∧ gate ∉ x.controls ∧ row ∈ (c.node gate).links) ∨
    x.partner = some r ∧ (c.node r).Covers

/-- No row that is a control of another node is marked as a passing wire. -/
def Untraced (c : Column n) : Prop :=
  ∀ gate r, gate ≠ r → r ∈ (c.node gate).controls → (c.node r).symbol ≠ .trace

theorem not_covers_blank (r : Nat) : ¬ (Node.blank r).Covers := fun h => h.1 rfl

theorem not_covers_controlMark (r : Nat) : ¬ (Node.controlMark r).Covers := fun h => h.2 rfl

theorem lt_of_covers (h : (c.node r).Covers) : r < n := by
  by_contra hr
  rw [node_of_le _ (Nat.not_lt.1 hr)] at h
  exact not_covers_blank r h

/-! ### Placements -/

/-- After a placement a row shows something of its own only if it did before, or if it is the row
of the new node. -/
theorem covers_overwrite (h : ((c.overwrite row x).node r).Covers) :
    (r = row ∧ x.Covers) ∨ (r ≠ row ∧ (c.node r).Covers) := by
  rcases node_overwrite_cases c row x (lt_of_covers h) with
    ⟨-, heq⟩ | ⟨-, hrow, heq⟩ | ⟨-, hrow, heq | heq⟩ <;> rw [heq] at h
  · exact absurd h (not_covers_controlMark r)
  · exact .inl ⟨hrow, h⟩
  · exact .inr ⟨hrow, h⟩
  · exact absurd h (not_covers_blank r)

/-- The row of a control of the new node shows nothing of its own. -/
theorem not_covers_of_mem_controls (hr : r ∈ x.controls) (hlt : r < n) :
    ¬ ((c.overwrite row x).node r).Covers := by
  rcases node_overwrite_cases c row x hlt with ⟨-, heq⟩ | ⟨hno, -⟩ | ⟨hno, -⟩
  · rw [heq]
    exact not_covers_controlMark r
  · exact absurd hr hno
  · exact absurd hr hno

/-- A placement obstructs a row only if it gets in the way of a link to it. -/
theorem obstructed_overwrite (hne : ∀ link ∈ x.links, link ≠ row)
    (h : (c.overwrite row x).Obstructed r) : c.Obstructed r ∨ c.Collides row x r := by
  obtain ⟨⟨gate, hl⟩, hcovers⟩ := h
  rcases covers_overwrite hcovers with ⟨rfl, hx⟩ | ⟨hrow, hold⟩
  · rcases mem_links_overwrite hl with ⟨-, hnew⟩ | ⟨hgate, hctrl, hmem⟩
    · exact absurd rfl (hne r hnew)
    · exact .inr (.inl ⟨rfl, hx, gate, hgate, hctrl, hmem⟩)
  · rcases mem_links_overwrite hl with ⟨-, hnew⟩ | ⟨-, -, hmem⟩
    · rcases Node.mem_links.1 hnew with hctrl | hpartner
      · exact absurd hcovers (not_covers_of_mem_controls hctrl (lt_of_covers hold))
      · exact .inr (.inr ⟨hpartner, hold⟩)
    · exact .inl ⟨⟨gate, hmem⟩, hold⟩

theorem obstructed_clear (h : (c.clear row).Obstructed r) : r ≠ row ∧ c.Obstructed r := by
  have hne : r ≠ row := by
    rcases covers_overwrite h.2 with ⟨-, hblank⟩ | ⟨hne, -⟩
    · exact absurd hblank (not_covers_blank row)
    · exact hne
  refine ⟨hne, (obstructed_overwrite (by simp) h).resolve_right ?_⟩
  rintro (⟨hrow, -⟩ | ⟨hpartner, -⟩)
  · exact hne hrow
  · cases hpartner

theorem obstructed_fillGap (h : (c.fillGap row).Obstructed r) : c.Obstructed r := by
  unfold fillGap at h
  split_ifs at h with hempty
  · have hunlinked := (reading_eq_empty_iff.1 (beq_iff_eq.1 hempty)).2
    refine (obstructed_overwrite (by simp) h).resolve_right ?_
    rintro (⟨-, -, gate, hgate, -, hl⟩ | ⟨hpartner, -⟩)
    · exact hunlinked gate hgate hl
    · cases hpartner
  · exact h

theorem obstructed_foldl_clear {rows : List Nat} (h : (rows.foldl clear c).Obstructed r) :
    c.Obstructed r := by
  induction rows generalizing c with
  | nil => exact h
  | cons q rest ih => exact (obstructed_clear (ih h)).2

theorem not_obstructed_blank : ¬ (blank : Column n).Obstructed r := by
  rintro ⟨⟨gate, hl⟩, -⟩
  rw [node_blank, Node.links_blank] at hl
  cases hl

/-! ### Edits -/

/-- A gate that is changed stays in its row, so it is in the way of nothing but its new links. -/
theorem obstructed_altered {fresh : List Nat} (hx : (c.node row).Altered x fresh)
    (hfits : c.Fits row x) (h : (c.overwrite row x).Obstructed r) :
    c.Obstructed r ∨ r ∈ fresh := by
  rcases obstructed_overwrite hfits.ne_of_mem h with
    hold | ⟨rfl, hcovers, gate, -, -, hl⟩ | ⟨hpartner, hcovers⟩
  · exact .inl hold
  · rw [Node.Covers, hx.symbol_eq] at hcovers
    exact .inl ⟨⟨gate, hl⟩, hcovers⟩
  · rcases hx.mem_or_fresh r (Node.mem_links.2 (.inr hpartner)) with hl | hfresh
    · exact .inl ⟨⟨row, hl⟩, hcovers⟩
    · exact .inr hfresh

theorem obstructed_link {new : Nat} (hx : (c.node row).Altered x [new]) (hfits : c.Fits row x)
    (h : ((c.overwrite row x).clear new).Obstructed r) : c.Obstructed r := by
  -- The new link is the row that has been emptied.
  obtain ⟨hne, h⟩ := obstructed_clear h
  refine (obstructed_altered hx hfits h).resolve_right fun hfresh => ?_
  exact hne (List.mem_singleton.1 hfresh)

/-- A change of one gate obstructs nothing. -/
theorem obstructed_change (hchange : c.Change row c') (h : c'.Obstructed r) : c.Obstructed r := by
  cases hchange with
  | keep => exact h
  | put hempty hnew hfits =>
    have hunlinked := (reading_eq_empty_iff.1 hempty).2
    obtain ⟨-, hlinks, -⟩ := newNode_eq_ok hnew
    refine (obstructed_overwrite hfits.ne_of_mem h).resolve_right ?_
    rintro (⟨-, -, gate, hgate, -, hl⟩ | ⟨hpartner, -⟩)
    · exact hunlinked gate hgate hl
    · have hl := Node.mem_links.2 (.inr hpartner)
      rw [hlinks] at hl
      cases hl
  | revise hx hfits => exact (obstructed_altered hx hfits h).resolve_right List.not_mem_nil
  | link hx _ hfits => exact obstructed_link hx hfits h
  | stretch hx _ hfits _ => exact obstructed_link hx hfits (obstructed_fillGap h)

/-- An edit of a column obstructs nothing. -/
theorem obstructed_step (hstep : c.Step c') (h : c'.Obstructed r) : c.Obstructed r := by
  cases hstep with
  | change hchange => exact obstructed_change hchange h
  | delete gate => exact obstructed_foldl_clear h

/-! ### Wires and controls -/

/-- After a placement a control is one of the new node or an old control of another row. -/
theorem mem_controls_overwrite {gate : Nat} (h : r ∈ ((c.overwrite row x).node gate).controls) :
    r ∈ x.controls ∨ gate ≠ row ∧ r ∈ (c.node gate).controls := by
  rcases node_overwrite_cases c row x (lt_of_mem_links (Node.mem_links_of_mem_controls h)) with
    ⟨-, heq⟩ | ⟨-, -, heq⟩ | ⟨-, hrow, heq | heq⟩ <;> rw [heq] at h
  · exact absurd (Node.mem_links_of_mem_controls h) (by simp)
  · exact .inl h
  · exact .inr ⟨hrow, h⟩
  · cases h

theorem untraced_blank : (blank : Column n).Untraced := by
  intro gate r _ hmem
  rw [node_blank, Node.controls_blank] at hmem
  cases hmem

namespace Untraced

/-- The row of a new control is written, so a placement spoils no control unless it stores a wire
in the row of one. -/
theorem overwrite (h : c.Untraced)
    (hx : x.symbol = .trace → ∀ gate, gate ≠ row → row ∉ (c.node gate).links) :
    (c.overwrite row x).Untraced := by
  intro gate r hne hmem hs
  have hcovers : ((c.overwrite row x).node r).Covers := by
    rw [Node.Covers, hs]
    decide
  rcases mem_controls_overwrite hmem with hctrl | ⟨-, hold⟩
  · exact not_covers_of_mem_controls hctrl (lt_of_covers hcovers) hcovers
  · rcases node_overwrite_cases c row x (lt_of_covers hcovers) with
      ⟨-, heq⟩ | ⟨-, rfl, heq⟩ | ⟨-, -, heq | heq⟩ <;> rw [heq] at hs
    · cases hs
    · exact hx hs gate hne (Node.mem_links_of_mem_controls hold)
    · exact h gate r hne hold hs
    · cases hs

theorem overwrite_gate (h : c.Untraced) (hx : x.symbol.isStructural = false) :
    (c.overwrite row x).Untraced := by
  refine h.overwrite fun hs => ?_
  rw [hs] at hx
  cases hx

theorem clear (h : c.Untraced) (row : Nat) : (c.clear row).Untraced :=
  h.overwrite_gate rfl

theorem fillGap (h : c.Untraced) (row : Nat) : (c.fillGap row).Untraced := by
  unfold Column.fillGap
  split_ifs with hempty
  · exact h.overwrite fun _ => (reading_eq_empty_iff.1 (beq_iff_eq.1 hempty)).2
  · exact h

theorem foldl_clear (h : c.Untraced) (rows : List Nat) :
    (rows.foldl Column.clear c).Untraced := by
  induction rows generalizing c with
  | nil => exact h
  | cons q rest ih => exact ih (h.clear q)

end Untraced

theorem Marked.untraced_change (hmarked : c.Marked) (h : c.Untraced) (hchange : c.Change row c') :
    c'.Untraced := by
  cases hchange with
  | keep => exact h
  | put _ hnew _ => exact h.overwrite_gate (isStructural_of_newNode hnew)
  | revise hx _ => exact h.overwrite_gate (hmarked.isStructural_of_altered hx)
  | link hx _ _ => exact (h.overwrite_gate (hmarked.isStructural_of_altered hx)).clear _
  | stretch hx _ _ _ =>
    exact ((h.overwrite_gate (hmarked.isStructural_of_altered hx)).clear _).fillGap _

theorem Marked.untraced_step (hmarked : c.Marked) (h : c.Untraced) (hstep : c.Step c') :
    c'.Untraced := by
  cases hstep with
  | change hchange => exact hmarked.untraced_change h hchange
  | delete gate => exact h.foldl_clear _

/-! ### What a linked row shows -/

/-- No row is a control and a partner. -/
theorem Linked.not_mem_controls_of_partner (h : c.Linked) {gate : Nat}
    (hpartner : (c.node gate).partner = some row) (other : Nat) :
    row ∉ (c.node other).controls := by
  intro hmem
  have hl : row ∈ (c.node gate).links := Node.mem_links.2 (.inr hpartner)
  obtain rfl := h.owner_eq hl (Node.mem_links_of_mem_controls hmem)
  have hnodup := h.nodup_links gate
  rw [Node.links, hpartner, Option.toList_some, List.nodup_append] at hnodup
  exact hnodup.2.2 row hmem row (List.mem_singleton_self row) rfl

theorem Linked.reading_eq_control (h : c.Linked) {gate : Nat}
    (hmem : row ∈ (c.node gate).controls) (hcovers : ¬ (c.node row).Covers) :
    c.reading row = .control := by
  have hne : gate ≠ row := (h.ne_of_mem (Node.mem_links_of_mem_controls hmem)).symm
  rcases Node.not_covers_iff.1 hcovers with hs | hs
  · exact reading_eq_control_iff.2 (.inr ⟨hs, isSome_controller?_iff.2 ⟨gate, hne, hmem⟩⟩)
  · exact reading_eq_control_iff.2 (.inl hs)

theorem Marked.reading_eq_swap (h : c.Marked) {gate : Nat}
    (hpartner : (c.node gate).partner = some row) (hcovers : ¬ (c.node row).Covers) :
    c.reading row = .swap := by
  have hcontrols := h.not_mem_controls_of_partner hpartner
  have hne : gate ≠ row := (h.ne_of_mem (Node.mem_links.2 (.inr hpartner))).symm
  -- A control mark has an owner, so the row is empty.
  have hs : (c.node row).symbol = .empty := by
    refine (Node.not_covers_iff.1 hcovers).resolve_right fun hs => ?_
    obtain ⟨other, hmem⟩ := h.owned hs
    exact hcontrols other hmem
  have hkind : (c.node row).kind = .empty := (Node.kind_eq_plain_iff rfl).2 hs
  have hcontroller : ¬ (c.controller? row).isSome = true := by
    rw [isSome_controller?_iff]
    rintro ⟨other, -, hmem⟩
    exact hcontrols other hmem
  rw [reading, hkind, if_neg (by simp), if_neg hcontroller,
    if_pos (isPartner_iff.2 ⟨gate, hne, hpartner⟩)]

/-- A row that is a control reads as one, or it holds a gate. -/
theorem Untraced.reading_or_gate (h : c.Untraced) (hlinked : c.Linked) {gate : Nat}
    (hmem : row ∈ (c.node gate).controls) :
    c.reading row = .control ∨ (c.node row).symbol.isNull = false := by
  by_cases hcovers : (c.node row).Covers
  · have hne : gate ≠ row := (hlinked.ne_of_mem (Node.mem_links_of_mem_controls hmem)).symm
    exact .inr (hcovers.symbol_cases.resolve_left (h gate row hne hmem))
  · exact .inl (hlinked.reading_eq_control hmem hcovers)

/-- A row that is the partner of a swap reads as one, or it holds a gate or a passing wire. -/
theorem Marked.reading_or_covered (h : c.Marked) {gate : Nat}
    (hpartner : (c.node gate).partner = some row) :
    c.reading row = .swap ∨ c.reading row = .trace ∨ (c.node row).symbol.isNull = false := by
  by_cases hcovers : (c.node row).Covers
  · exact .inr (hcovers.symbol_cases.imp_left reading_eq_trace_iff.2)
  · exact .inl (h.reading_eq_swap hpartner hcovers)

end Column

end QuantumCircuit

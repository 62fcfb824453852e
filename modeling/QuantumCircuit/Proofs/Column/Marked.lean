import Mathlib.Tactic.ByContra
import Mathlib.Tactic.SplitIfs
import QuantumCircuit.Proofs.Column.Tidy

/-!
# Marks that a placement leaves behind

Whoever puts gates into a column may put them on top of others, and links may then cross gates.
Such a column is no longer tidy, but as long as nobody stores a mark of their own it is `Marked`:
a mark has no links, and a control mark has an owner.

A passing wire may be left `Stray`, with no link over it any more.  Releasing a row keeps a wire
that a link of another node passes (`isStale_iff`), and this other node may be the next one to go.
`stray_overwrite` says that this is the only way: two nodes with links over the wire lose them in
the same step (`Uncovers`).  Deleting a gate empties row after row, so it leaves nothing stray
(`Marked.stray_deleteGate`).
-/

namespace QuantumCircuit

theorem Symbol.isStructural_of_isNull {s : Symbol} (h : s.isNull = false) :
    s.isStructural = false := by
  cases s <;> first | rfl | cases h

namespace Column

variable {n : Nat} {c c' : Column n}

/-- A link of the node in row `gate` passes the row. -/
def Passes (c : Column n) (gate row : Nat) : Prop :=
  ∃ link ∈ (c.node gate).links, isBetween gate link row = true

/-- The row is marked as a passing wire, but no link passes it. -/
def Stray (c : Column n) (row : Nat) : Prop :=
  (c.node row).symbol = .trace ∧ ∀ gate, ¬ c.Passes gate row

/-- Two nodes whose links pass the row have no more such links in `c'`. -/
def Uncovers (c c' : Column n) (row : Nat) : Prop :=
  ∃ gate other, gate ≠ other ∧ (c.Passes gate row ∧ ¬ c'.Passes gate row) ∧
    c.Passes other row ∧ ¬ c'.Passes other row

theorem Passes.links_ne_nil {gate row : Nat} (h : c.Passes gate row) :
    (c.node gate).links ≠ [] := by
  obtain ⟨link, hl, -⟩ := h
  exact List.ne_nil_of_mem hl

theorem Passes.ne {gate row : Nat} (h : c.Passes gate row) : gate ≠ row := by
  obtain ⟨link, -, hbetween⟩ := h
  rw [isBetween_iff] at hbetween
  omega

theorem Passes.congr {gate row : Nat} (h : c.Passes gate row)
    (heq : (c'.node gate).links = (c.node gate).links) : c'.Passes gate row := by
  rwa [Passes, heq]

theorem Passes.of_release {gate row r : Nat} {keep : List Nat}
    (h : (c.release row keep).Passes gate r) : c.Passes gate r := by
  obtain ⟨link, hl, hbetween⟩ := h
  refine ⟨link, ?_, hbetween⟩
  rw [node_release_eq] at hl
  split_ifs at hl
  · simp at hl
  · exact hl

theorem Passes.of_overwrite {gate row r : Nat} {x : Node} (hx : x.links = [])
    (h : (c.overwrite row x).Passes gate r) : c.Passes gate r := by
  obtain ⟨link, hl, hbetween⟩ := h
  rcases mem_links_overwrite hl with ⟨-, hnew⟩ | ⟨-, -, hold⟩
  · rw [hx] at hnew
    cases hnew
  · exact ⟨link, hold, hbetween⟩

theorem Passes.of_clear {gate row r : Nat} (h : (c.clear row).Passes gate r) :
    c.Passes gate r :=
  h.of_overwrite (Node.links_blank row)

theorem Passes.of_fillGap {gate row r : Nat} (h : (c.fillGap row).Passes gate r) :
    c.Passes gate r := by
  unfold fillGap at h
  split_ifs at h
  · exact h.of_overwrite (Node.links_traceMark row)
  · exact h

theorem Uncovers.trans {c'' : Column n} {row : Nat} (h : c.Uncovers c' row)
    (hlost : ∀ {gate}, c''.Passes gate row → c'.Passes gate row) : c.Uncovers c'' row := by
  obtain ⟨gate, other, hne, ⟨hpass, hgone⟩, hpass', hgone'⟩ := h
  exact ⟨gate, other, hne, ⟨hpass, mt hlost hgone⟩, hpass', mt hlost hgone'⟩

theorem isSpanned_eq_true_iff {row : Nat} :
    c.isSpanned row row = true ↔ ∃ gate, c.Passes gate row := by
  rw [isSpanned_iff]
  exact exists_congr fun gate => ⟨fun h => h.2, fun h => ⟨h.ne, h⟩⟩

instance (row : Nat) : Decidable (c.Stray row) :=
  decidable_of_iff ((c.node row).symbol = .trace ∧ ¬ c.isSpanned row row = true) <| by
    rw [isSpanned_eq_true_iff, Stray, not_exists]

/-- A mark has no links of its own. -/
def Bare (c : Column n) : Prop :=
  ∀ r, (c.node r).symbol.isStructural = true → (c.node r).links = []

/-- Links are sound, a mark has no links of its own, and a control mark has an owner. -/
structure Marked (c : Column n) : Prop extends Linked c where
  bare : c.Bare
  owned : ∀ {r}, (c.node r).symbol = .control → ∃ gate, r ∈ (c.node gate).controls

theorem marked_blank : (blank : Column n).Marked where
  toLinked := linked_blank
  bare _ _ := by simp
  owned h := by simp at h

/-! ### Releasing -/

/-- The node in row `gate` may go, and the mark in row `r` is still needed if links to the rows in
`keep` stay: it belongs to no control of the node, and if a link of the node passes it, then one
in `keep` or one of a node elsewhere does too. -/
structure Needed (c : Column n) (gate : Nat) (keep : List Nat) (r : Nat) : Prop where
  not_mem : (c.node r).symbol = .control → r ∉ (c.node gate).controls
  passed : (c.node r).symbol = .trace → c.Passes gate r →
    (∃ kept ∈ keep, isBetween gate kept r = true) ∨ ∃ other, other ≠ gate ∧ c.Passes other r

theorem isStructural_of_isStale {row : Nat} {keep : List Nat} {r : Nat}
    (h : c.isStale row keep r = true) : (c.node r).symbol.isStructural = true := by
  rcases isStale_iff.1 h with ⟨-, hs⟩ | ⟨-, hs, -⟩ <;> rw [hs] <;> rfl

namespace Bare

variable {row r : Nat} {keep : List Nat}

theorem release (h : c.Bare) (row : Nat) (keep : List Nat) : (c.release row keep).Bare := by
  intro r hr
  rw [node_release_eq] at hr ⊢
  split_ifs at hr ⊢
  · exact Node.links_blank r
  · exact h r hr

/-- Releasing a row leaves all nodes with links alone. -/
theorem node_release_of_links (h : c.Bare) (hl : (c.node r).links ≠ []) (row : Nat)
    (keep : List Nat) : (c.release row keep).node r = c.node r := by
  rw [node_release_eq, if_neg fun hstale => hl (h r (isStructural_of_isStale hstale))]

/-- Releasing rows leaves all nodes with links alone. -/
theorem node_foldl_release_of_links (h : c.Bare) {rows : List Nat} {keep : Nat → List Nat}
    (hl : (c.node r).links ≠ []) :
    (rows.foldl (fun c r => c.release r (keep r)) c).node r = c.node r := by
  induction rows generalizing c with
  | nil => rfl
  | cons q rest ih =>
    have hq := h.node_release_of_links hl q (keep q)
    rw [List.foldl_cons, ih (h.release q (keep q)) (by rwa [hq]), hq]

theorem needed_of_not_isStale {gate : Nat} (h : ¬ c.isStale gate keep r = true) :
    c.Needed gate keep r := by
  refine ⟨fun hs hmem => h (isStale_iff.2 (.inl ⟨hmem, hs⟩)), fun hs hpass => ?_⟩
  by_contra hno
  rw [not_or] at hno
  refine h (isStale_iff.2 (.inr ⟨hpass, hs, fun kept hkept hb => hno.1 ⟨kept, hkept, hb⟩, ?_⟩))
  refine eq_false_of_ne_true fun hspanned => hno.2 ?_
  exact isSpanned_iff.1 hspanned

/-- A mark that is left when rows have been released is needed beside each of these rows. -/
theorem needed_of_foldl_release (h : c.Bare) {rows : List Nat} {keep : Nat → List Nat}
    (hleft : ((rows.foldl (fun c r => c.release r (keep r)) c).node r).symbol.isStructural = true)
    {gate : Nat} (hgate : gate ∈ rows) :
    c.Needed gate (keep gate) r := by
  induction rows generalizing c with
  | nil => cases hgate
  | cons q rest ih =>
    rw [List.foldl_cons] at hleft
    have hstale : ¬ c.isStale q (keep q) r = true := by
      intro hstale
      rcases node_foldl_release (c.release q (keep q)) rest keep r with heq | heq <;>
        simp [heq, node_release_eq, hstale, Symbol.isStructural] at hleft
    rcases List.mem_cons.1 hgate with rfl | hrest
    · exact needed_of_not_isStale hstale
    · have hnode : (c.release q (keep q)).node r = c.node r := by
        rw [node_release_eq, if_neg hstale]
      by_cases hlinks : (c.node gate).links = []
      · refine ⟨fun _ hmem => ?_, fun _ hpass => absurd hlinks hpass.links_ne_nil⟩
        rw [Node.controls_eq_nil_of_links hlinks] at hmem
        cases hmem
      · have hrows := ih (h.release q (keep q)) hleft hrest
        have hsame := h.node_release_of_links hlinks q (keep q)
        refine ⟨?_, fun hs hpass => ?_⟩
        · rw [← hnode, ← hsame]
          exact hrows.not_mem
        rw [← hnode] at hs
        rcases hrows.passed hs (hpass.congr (by rw [hsame])) with hkept | ⟨other, hne, hother⟩
        · exact .inl hkept
        · exact .inr ⟨other, hne, hother.of_release⟩

end Bare

/-! ### Placements -/

theorem node_overwrite {row : Nat} {x : Node} {r : Nat} (hr : r < n) :
    (c.overwrite row x).node r =
      if r ∈ x.controls then .controlMark r
      else if r = row then x.atRow r
      else ((x.controls ++ [row]).foldl
        (fun c r => c.release r (if r = row then x.links else [])) c).node r := by
  simp only [overwrite, node_write _ _ _ hr, List.contains_iff_mem]

namespace Bare

variable {row : Nat} {x : Node}

theorem overwrite (h : c.Bare) (hx : x.symbol.isStructural = true → x.links = []) :
    (c.overwrite row x).Bare :=
  forall_node_overwrite (P := fun _ y => y.symbol.isStructural = true → y.links = [])
    (by simp) hx (by simp) h

/-- Nodes with links stay, except in the rows that are overwritten. -/
theorem node_overwrite_of_links (h : c.Bare) {r : Nat} (hx : r ∉ x.controls) (hr : r ≠ row)
    (hl : (c.node r).links ≠ []) : (c.overwrite row x).node r = c.node r := by
  rw [node_overwrite (lt_of_links_ne_nil hl), if_neg hx, if_neg hr,
    h.node_foldl_release_of_links hl]

/-- Links over a row are only lost in the rows that are overwritten. -/
theorem mem_overwritten (h : c.Bare) {gate r : Nat} (hpass : c.Passes gate r)
    (hlost : ¬ (c.overwrite row x).Passes gate r) : gate ∈ x.controls ++ [row] := by
  by_contra hno
  simp only [List.mem_append, List.mem_singleton, not_or] at hno
  exact hlost (hpass.congr (by rw [h.node_overwrite_of_links hno.1 hno.2 hpass.links_ne_nil]))

/-- A mark elsewhere that is left after a placement is needed beside every overwritten row. -/
theorem needed_of_overwrite (h : c.Bare) {r : Nat} (hx : r ∉ x.controls) (hr : r ≠ row)
    (hleft : ((c.overwrite row x).node r).symbol.isStructural = true) :
    (c.overwrite row x).node r = c.node r ∧
      ∀ gate ∈ x.controls ++ [row], c.Needed gate (if gate = row then x.links else []) r := by
  have hlt : r < n := by
    by_contra hno
    rw [node_of_le _ (Nat.not_lt.1 hno)] at hleft
    cases hleft
  rw [node_overwrite hlt, if_neg hx, if_neg hr] at hleft ⊢
  refine ⟨?_, fun gate hgate => h.needed_of_foldl_release hleft hgate⟩
  rcases node_foldl_release c (x.controls ++ [row]) (fun r => if r = row then x.links else []) r
    with heq | heq
  · exact heq
  · rw [heq] at hleft
    cases hleft

end Bare

theorem Fits.node_overwrite {row : Nat} {x : Node} (hfits : c.Fits row x) :
    (c.overwrite row x).node row = x.atRow row := by
  rw [Column.node_overwrite hfits.row_lt, if_pos rfl, if_neg fun hmem =>
    hfits.ne_of_mem row (Node.mem_links_of_mem_controls hmem) rfl]

namespace Marked

variable {row r : Nat} {x : Node}

theorem overwrite (h : c.Marked) (hfits : c.Fits row x) (hcontrol : x.symbol ≠ .control)
    (hx : x.symbol.isStructural = true → x.links = []) : (c.overwrite row x).Marked where
  toLinked := h.toLinked.overwrite hfits
  bare := h.bare.overwrite hx
  owned {r} hs := by
    by_cases hctrl : r ∈ x.controls
    · exact ⟨row, by rwa [hfits.node_overwrite, Node.controls_atRow]⟩
    by_cases hrow : r = row
    · rw [hrow, hfits.node_overwrite] at hs
      exact absurd hs hcontrol
    -- An old mark: had its owner been overwritten, the mark would have gone with it.
    obtain ⟨hnode, hneeded⟩ := h.bare.needed_of_overwrite hctrl hrow (by rw [hs]; rfl)
    rw [hnode] at hs
    obtain ⟨gate, hmem⟩ := h.owned hs
    have hgate : gate ∉ x.controls ++ [row] := fun hover => (hneeded gate hover).not_mem hs hmem
    simp only [List.mem_append, List.mem_singleton, not_or] at hgate
    refine ⟨gate, ?_⟩
    rwa [h.bare.node_overwrite_of_links hgate.1 hgate.2
      (List.ne_nil_of_mem (Node.mem_links_of_mem_controls hmem))]

/-- A placement leaves a passing wire elsewhere stray only if two nodes with links over it go. -/
theorem stray_overwrite (h : c.Marked) (hfits : c.Fits row x) (hr : r ≠ row)
    (hstray : (c.overwrite row x).Stray r) : c.Stray r ∨ c.Uncovers (c.overwrite row x) r := by
  have hctrl : r ∉ x.controls := by
    intro hctrl
    have hs := hstray.1
    rw [Column.node_overwrite (hfits.lt_of_mem r (Node.mem_links_of_mem_controls hctrl)),
      if_pos hctrl] at hs
    cases hs
  obtain ⟨hnode, hneeded⟩ := h.bare.needed_of_overwrite hctrl hr (by rw [hstray.1]; rfl)
  have hs : (c.node r).symbol = .trace := by rw [← hnode]; exact hstray.1
  by_cases hpassed : ∃ gate, c.Passes gate r
  · obtain ⟨gate, hpass⟩ := hpassed
    have hover := h.bare.mem_overwritten hpass (hstray.2 gate)
    rcases (hneeded gate hover).passed hs hpass with ⟨kept, hkept, hbetween⟩ | ⟨other, hne, hother⟩
    · -- Only the row of the new node keeps links, and these are links of the new node.
      refine absurd ⟨kept, ?_, hbetween⟩ (hstray.2 gate)
      split_ifs at hkept with hrow
      · rwa [hrow, hfits.node_overwrite, Node.links_atRow]
      · cases hkept
    · exact .inr ⟨gate, other, hne.symm, ⟨hpass, hstray.2 gate⟩, hother, hstray.2 other⟩
  · exact .inl ⟨hs, not_exists.1 hpassed⟩

/-! ### Nodes without links -/

theorem overwrite_of_links_nil (h : c.Marked) (row : Nat) (hx : x.links = [])
    (hcontrol : x.symbol ≠ .control) : (c.overwrite row x).Marked := by
  by_cases hrow : row < n
  · exact h.overwrite (fits_of_links_nil hrow hx) hcontrol fun _ => hx
  · rwa [overwrite_of_le (Nat.not_lt.1 hrow) hx]

/-- A node without links overwrites one row, so it leaves no wire elsewhere stray. -/
theorem stray_of_links_nil (h : c.Marked) (hx : x.links = []) (hr : r ≠ row)
    (hstray : (c.overwrite row x).Stray r) : c.Stray r := by
  by_cases hrow : row < n
  · rcases h.stray_overwrite (fits_of_links_nil hrow hx) hr hstray with
      hold | ⟨gate, other, hne, ⟨hpass, hlost⟩, hpass', hlost'⟩
    · exact hold
    · have hgate := h.bare.mem_overwritten hpass hlost
      have hother := h.bare.mem_overwritten hpass' hlost'
      simp only [Node.controls_eq_nil_of_links hx, List.nil_append, List.mem_singleton] at *
      exact absurd (hgate.trans hother.symm) hne
  · rwa [overwrite_of_le (Nat.not_lt.1 hrow) hx] at hstray

theorem clear (h : c.Marked) (row : Nat) : (c.clear row).Marked :=
  h.overwrite_of_links_nil row (Node.links_blank row) (by simp)

theorem stray_clear (h : c.Marked) (hstray : (c.clear row).Stray r) : c.Stray r := by
  refine h.stray_of_links_nil (Node.links_blank row) ?_ hstray
  rintro rfl
  by_cases hr : r < n
  · have hs := hstray.1
    rw [Column.clear, Column.node_overwrite hr] at hs
    simp at hs
  · have hs := hstray.1
    rw [node_of_le _ (Nat.not_lt.1 hr)] at hs
    cases hs

theorem fillGap (h : c.Marked) (row : Nat) : (c.fillGap row).Marked := by
  unfold Column.fillGap
  split_ifs
  · exact h.overwrite_of_links_nil row (Node.links_traceMark row) (by simp)
  · exact h

/-- The wire that is marked lies on a link, which stays. -/
theorem stray_fillGap (h : c.Marked) {gate : Nat} (hpass : c.Passes gate row)
    (hstray : (c.fillGap row).Stray r) : c.Stray r := by
  unfold Column.fillGap at hstray
  split_ifs at hstray
  · refine h.stray_of_links_nil (Node.links_traceMark row) ?_ hstray
    rintro rfl
    refine hstray.2 gate (hpass.congr ?_)
    rw [h.bare.node_overwrite_of_links (by simp) hpass.ne hpass.links_ne_nil]
  · exact hstray

/-! ### Edits -/

/-- Only gates are edited. -/
theorem isStructural_of_altered (h : c.Marked) {fresh : List Nat}
    (hx : (c.node row).Altered x fresh) : x.symbol.isStructural = false := by
  rw [hx.symbol_eq]
  by_contra hmark
  rcases hx.isGate with hgate | hlinks
  · exact hmark (Symbol.isStructural_of_isNull hgate)
  · exact hlinks (h.bare row (by simpa using hmark))

/-- A new gate is no mark. -/
theorem isStructural_of_newNode {g : NewGate} (hnew : newNode g = .ok x) :
    x.symbol.isStructural = false := by
  rw [(newNode_eq_ok hnew).1]
  exact Symbol.isStructural_of_isNull g.isNull_symbol

theorem overwrite_gate (h : c.Marked) (hfits : c.Fits row x)
    (hx : x.symbol.isStructural = false) : (c.overwrite row x).Marked := by
  refine h.overwrite hfits (fun hs => ?_) fun hs => ?_ <;> rw [hs] at hx <;> cases hx

/-- Storing a gate leaves a wire stray only if two nodes with links over it go. -/
theorem stray_overwrite_gate (h : c.Marked) (hfits : c.Fits row x)
    (hx : x.symbol.isStructural = false) (hstray : (c.overwrite row x).Stray r) :
    c.Stray r ∨ c.Uncovers (c.overwrite row x) r := by
  refine h.stray_overwrite hfits ?_ hstray
  rintro rfl
  have hs := hstray.1
  rw [hfits.node_overwrite, Node.symbol_atRow] at hs
  rw [hs] at hx
  cases hx

/-- The wires towards a new link are passed when the linked row has been emptied. -/
theorem passes_clear (h : c.Marked) (hfits : c.Fits row x) (hx : x.symbol.isStructural = false)
    {new gap : Nat} (hnew : new ∈ x.links) (hgap : isBetween row new gap = true) :
    ((c.overwrite row x).clear new).Passes row gap := by
  have hlinks : new ∈ ((c.overwrite row x).node row).links := by
    rwa [hfits.node_overwrite, Node.links_atRow]
  refine ⟨new, ?_, hgap⟩
  rwa [Column.clear, (h.overwrite_gate hfits hx).bare.node_overwrite_of_links (by simp)
    (hfits.ne_of_mem new hnew).symm (List.ne_nil_of_mem hlinks)]

theorem change (h : c.Marked) (hchange : c.Change row c') : c'.Marked := by
  cases hchange with
  | keep => exact h
  | put _ hnew hfits => exact h.overwrite_gate hfits (isStructural_of_newNode hnew)
  | revise hx hfits => exact h.overwrite_gate hfits (h.isStructural_of_altered hx)
  | link hx _ hfits => exact (h.overwrite_gate hfits (h.isStructural_of_altered hx)).clear _
  | stretch hx _ hfits _ =>
    exact ((h.overwrite_gate hfits (h.isStructural_of_altered hx)).clear _).fillGap _

/-- A change of a gate leaves a wire stray only if two nodes with links over it lose them. -/
theorem stray_change (h : c.Marked) (hchange : c.Change row c') (hstray : c'.Stray r) :
    c.Stray r ∨ c.Uncovers c' r := by
  cases hchange with
  | keep => exact .inl hstray
  | put _ hnew hfits =>
    exact h.stray_overwrite_gate hfits (isStructural_of_newNode hnew) hstray
  | revise hx hfits => exact h.stray_overwrite_gate hfits (h.isStructural_of_altered hx) hstray
  | link hx _ hfits =>
    have hgate := h.isStructural_of_altered hx
    have hplaced := (h.overwrite_gate hfits hgate).stray_clear hstray
    exact (h.stray_overwrite_gate hfits hgate hplaced).imp_right (·.trans Passes.of_clear)
  | @stretch x new gap hx _ hfits hgap =>
    have hgate := h.isStructural_of_altered hx
    have hplaced := h.overwrite_gate hfits hgate
    have hpass := h.passes_clear hfits hgate (hx.mem_of_fresh new List.mem_cons_self) hgap
    have hlinked := hplaced.stray_clear ((hplaced.clear new).stray_fillGap hpass hstray)
    exact (h.stray_overwrite_gate hfits hgate hlinked).imp_right
      (·.trans fun hp => hp.of_fillGap.of_clear)

theorem foldl_clear (h : c.Marked) (rows : List Nat) : (rows.foldl Column.clear c).Marked := by
  induction rows generalizing c with
  | nil => exact h
  | cons q rest ih => exact ih (h.clear q)

theorem stray_foldl_clear (h : c.Marked) {rows : List Nat}
    (hstray : (rows.foldl Column.clear c).Stray r) : c.Stray r := by
  induction rows generalizing c with
  | nil => exact hstray
  | cons q rest ih => exact h.stray_clear (ih (h.clear q) hstray)

theorem deleteGate (h : c.Marked) (gate : Nat) : (c.deleteGate gate).Marked :=
  h.foldl_clear _

/-- Deleting a gate leaves no wire stray. -/
theorem stray_deleteGate (h : c.Marked) {gate : Nat} (hstray : (c.deleteGate gate).Stray r) :
    c.Stray r :=
  h.stray_foldl_clear hstray

theorem step (h : c.Marked) (hstep : c.Step c') : c'.Marked := by
  cases hstep with
  | change hchange => exact h.change hchange
  | delete gate => exact h.deleteGate gate

/-- An edit leaves a wire stray only if two nodes with links over it lose them. -/
theorem stray_step (h : c.Marked) (hstep : c.Step c') (hstray : c'.Stray r) :
    c.Stray r ∨ c.Uncovers c' r := by
  cases hstep with
  | change hchange => exact h.stray_change hchange hstray
  | delete gate => exact .inl (h.stray_deleteGate hstray)

end Marked

end Column

end QuantumCircuit

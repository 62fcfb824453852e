import Mathlib.Tactic.ByContra
import Mathlib.Tactic.SplitIfs
import QuantumCircuit.Proofs.Column.Linked

/-!
# Tidy columns

`Tidy` is what a column satisfies as long as nobody puts nodes of their own making into it.  On
top of sound links it says what the marks are: a row that is linked to holds nothing or a control
mark, a control mark has an owner, and a passing wire lies between a gate and one of its links.

All writes are cases of `Tidy.rewritten`: a node that the row admits is stored, and the marks that
only its predecessor needed are gone.  A mark that is left has an owner, since releasing looks at
the links of all nodes that stay (`isStale_iff`).  So `Tidy` is kept by every change
(`Tidy.change`) and by deleting (`Tidy.deleteGate`).
-/

namespace QuantumCircuit

/-- Only rotatable gates have an angle of their own, and only swaps have a partner. -/
structure Node.Proper (x : Node) : Prop where
  theta_eq_pi : x.symbol.isRotatable = false → x.theta = .pi
  symbol_of_partner : x.partner.isSome = true → x.symbol = .swap

theorem Node.proper_ofSymbol (s : Symbol) : (ofSymbol s).Proper where
  theta_eq_pi _ := by simp only [ofSymbol]
  symbol_of_partner h := by simp [ofSymbol] at h

theorem Node.Proper.atRow {x : Node} (h : x.Proper) (row : Nat) : (x.atRow row).Proper where
  theta_eq_pi := h.theta_eq_pi
  symbol_of_partner := h.symbol_of_partner

theorem Node.Altered.proper {x y : Node} {fresh : List Nat} (h : x.Altered y fresh)
    (hx : x.Proper) : y.Proper where
  theta_eq_pi hs := by
    rw [h.symbol_eq] at hs
    rw [h.theta_eq hs, hx.theta_eq_pi hs]
  symbol_of_partner hy := by
    rw [h.symbol_eq]
    exact (h.symbol_of_partner hy).elim hx.symbol_of_partner id

namespace Column

variable {n : Nat} {c c' : Column n}

/-- Links are sound, linked rows hold nothing or a control mark, and every mark is needed. -/
structure Tidy (c : Column n) : Prop extends Linked c where
  proper : ∀ r, (c.node r).Proper
  /-- A row without a gate holds a fresh node. -/
  eq_ofSymbol : ∀ r, (c.node r).symbol.isNull = true →
    c.node r = (Node.ofSymbol (c.node r).symbol).atRow r
  symbol_of_mem : ∀ {r link}, link ∈ (c.node r).links →
    (c.node link).symbol = .empty ∨ (c.node link).symbol = .control
  owned : ∀ {r}, (c.node r).symbol = .control → ∃ gate, r ∈ (c.node gate).controls
  spanned : ∀ {r}, (c.node r).symbol = .trace →
    ∃ gate, ∃ link ∈ (c.node gate).links, isBetween gate link r = true

theorem tidy_blank : (blank : Column n).Tidy where
  toLinked := linked_blank
  proper r := by rw [node_blank]; exact (Node.proper_ofSymbol .empty).atRow r
  eq_ofSymbol r _ := by rw [node_blank, Node.symbol_blank, Node.blank]
  symbol_of_mem h := by simp at h
  owned h := by simp at h
  spanned h := by simp at h

theorem Tidy.links_of_isNull (h : c.Tidy) {r : Nat} (hr : (c.node r).symbol.isNull = true) :
    (c.node r).links = [] := by
  rw [h.eq_ofSymbol r hr]
  rfl

/-- Only gates have links. -/
theorem Tidy.isNull_of_links_ne_nil (h : c.Tidy) {r : Nat} (hlinks : (c.node r).links ≠ []) :
    (c.node r).symbol.isNull = false := by
  by_contra hnull
  exact hlinks (h.links_of_isNull (by simpa using hnull))

/-- A row that a node is linked to holds no gate. -/
theorem Tidy.isNull_of_mem (h : c.Tidy) {r link : Nat} (hl : link ∈ (c.node r).links) :
    (c.node link).symbol.isNull = true := by
  rcases h.symbol_of_mem hl with hs | hs <;> rw [hs] <;> rfl

theorem isNull_of_isFree {row : Nat} (h : c.isFree row = true) :
    (c.node row).symbol.isNull = true := by
  rcases isFree_iff.1 h with hr | hs
  · rw [(reading_eq_empty_iff.1 hr).1]; rfl
  · rw [hs]; rfl

theorem Tidy.not_mem_of_reading (h : c.Tidy) {row : Nat} (hempty : c.reading row = .empty)
    (r : Nat) : row ∉ (c.node r).links := fun hmem =>
  (reading_eq_empty_iff.1 hempty).2 r (h.ne_of_mem hmem).symm hmem

/-- A row that holds nothing or a control mark shows nothing if no node is linked to it. -/
theorem Tidy.reading_eq_empty (h : c.Tidy) {row : Nat}
    (hs : (c.node row).symbol = .empty ∨ (c.node row).symbol = .control)
    (hunlinked : ∀ r, row ∉ (c.node r).links) : c.reading row = .empty := by
  refine reading_eq_empty_iff.2 ⟨hs.resolve_right fun hmark => ?_, fun r _ => hunlinked r⟩
  obtain ⟨gate, hmem⟩ := h.owned hmark
  exact hunlinked gate (Node.mem_links_of_mem_controls hmem)

/-- An empty row becomes a passing wire when it is filled, and no other row changes. -/
theorem Tidy.node_fillGap (h : c.Tidy) {gap : Nat} (hempty : c.reading gap = .empty) {r : Nat}
    (hr : r < n) : (c.fillGap gap).node r = if r = gap then .traceMark gap else c.node r := by
  have hlinks : (c.node gap).links = [] :=
    h.links_of_isNull (by rw [(reading_eq_empty_iff.1 hempty).1]; rfl)
  rw [Column.fillGap, if_pos (beq_iff_eq.2 hempty),
    node_overwrite_of_links_nil hlinks (Node.links_traceMark gap) hr]
  split_ifs with heq
  · rw [heq]
    simp only [Node.traceMark, Node.atRow]
  · rfl

/-! ### Storing a node -/

/-- A node with links stays when a node is stored in another row, unless its row is a control of
the new node or is emptied. -/
theorem Tidy.node_rewritten_of_links (h : c.Tidy) {row : Nat} {x : Node} {fresh : List Nat}
    (hcontrols : ∀ r ∈ x.controls, (c.node r).links = [])
    (hfresh : ∀ r ∈ fresh, (c.node r).links = []) {r : Nat} (hr : r ≠ row)
    (hlinks : (c.node r).links ≠ []) : (c.rewritten row x fresh).node r = c.node r := by
  have hstale : ¬ c.isStale row x.links r = true := fun hs =>
    hlinks (h.links_of_isNull (isNull_of_isStale hs))
  rw [node_rewritten _ _ _ _ (lt_of_links_ne_nil hlinks), if_neg fun hmem => hlinks (hfresh r hmem),
    if_neg fun hmem => hlinks (hcontrols r hmem), if_neg hr, if_neg hstale]

/-- The node may be stored in the row as far as the marks of the column go, if the rows in `fresh`
are emptied with it. -/
structure Admits (c : Column n) (row : Nat) (x : Node) (fresh : List Nat) : Prop where
  row_lt : row < n
  proper : x.Proper
  eq_ofSymbol : x.symbol.isNull = true → x.atRow row = (Node.ofSymbol x.symbol).atRow row
  symbol_ne : x.symbol ≠ .control
  empty_of_mem : ∀ {r}, row ∈ (c.node r).links → x.symbol = .empty
  spanned : x.symbol = .trace →
    ∃ gate, gate ≠ row ∧ ∃ link ∈ (c.node gate).links, isBetween gate link row = true
  ne_of_mem : ∀ link ∈ x.links, link ≠ row
  mem_or_fresh : ∀ link ∈ x.links, link ∈ (c.node row).links ∨ link ∈ fresh
  ne_of_fresh : ∀ r ∈ fresh, r ≠ row
  links_of_fresh : ∀ r ∈ fresh, (c.node r).links = []

namespace Admits

variable {row : Nat} {x : Node} {fresh : List Nat}

theorem node_row (hx : c.Admits row x fresh) :
    (c.rewritten row x fresh).node row = x.atRow row := by
  rw [node_rewritten _ _ _ _ hx.row_lt, if_neg fun hmem => hx.ne_of_fresh row hmem rfl,
    if_neg fun hmem => hx.ne_of_mem row (Node.mem_links_of_mem_controls hmem) rfl, if_pos rfl]

/-- The rows that a gate has as controls after an edit had no links before. -/
theorem links_of_mem_controls (hx : c.Admits row x fresh) (h : c.Tidy) {r : Nat}
    (hr : r ∈ x.controls) : (c.node r).links = [] := by
  rcases hx.mem_or_fresh r (Node.mem_links_of_mem_controls hr) with hold | hnew
  · exact h.links_of_isNull (h.isNull_of_mem hold)
  · exact hx.links_of_fresh r hnew

/-- Only marks are written or taken away beside the row itself, so nodes with links stay. -/
theorem node_of_links (hx : c.Admits row x fresh) (h : c.Tidy) {r : Nat} (hr : r ≠ row)
    (hlinks : (c.node r).links ≠ []) : (c.rewritten row x fresh).node r = c.node r :=
  h.node_rewritten_of_links (fun _ hr => hx.links_of_mem_controls h hr) hx.links_of_fresh hr hlinks

theorem mem_of_mem_rewritten {r link : Nat} (hr : r ≠ row)
    (hl : link ∈ ((c.rewritten row x fresh).node r).links) : link ∈ (c.node r).links := by
  rw [node_rewritten _ _ _ _ (lt_of_mem_links hl)] at hl
  split_ifs at hl with hf hc hs
  · simp at hl
  · simp at hl
  · simp at hl
  · exact hl

theorem proper_rewritten (hx : c.Admits row x fresh) (h : c.Tidy) (r : Nat) :
    ((c.rewritten row x fresh).node r).Proper := by
  by_cases hr : r < n
  · rw [node_rewritten _ _ _ _ hr]
    split_ifs
    · exact (Node.proper_ofSymbol .empty).atRow r
    · exact (Node.proper_ofSymbol .control).atRow r
    · exact hx.proper.atRow r
    · exact (Node.proper_ofSymbol .empty).atRow r
    · exact h.proper r
  · rw [node_of_le _ (Nat.not_lt.1 hr)]
    exact (Node.proper_ofSymbol .empty).atRow r

theorem eq_ofSymbol_rewritten (hx : c.Admits row x fresh) (h : c.Tidy) {r : Nat}
    (hs : ((c.rewritten row x fresh).node r).symbol.isNull = true) :
    (c.rewritten row x fresh).node r =
      (Node.ofSymbol ((c.rewritten row x fresh).node r).symbol).atRow r := by
  by_cases hr : r < n
  · rw [node_rewritten _ _ _ _ hr] at hs ⊢
    split_ifs at hs ⊢ with _ _ hrow
    · rw [Node.symbol_blank, Node.blank]
    · rw [Node.symbol_controlMark, Node.controlMark]
    · rw [hrow, Node.symbol_atRow]
      exact hx.eq_ofSymbol hs
    · rw [Node.symbol_blank, Node.blank]
    · exact h.eq_ofSymbol r hs
  · rw [node_of_le _ (Nat.not_lt.1 hr), Node.symbol_blank, Node.blank]

/-- A linked row holds nothing or a control mark afterwards: it is a new link, an old link of the
node that is replaced, or a link of a node that stays. -/
theorem symbol_of_mem_rewritten (hx : c.Admits row x fresh) (h : c.Tidy)
    (hlinked : (c.rewritten row x fresh).Linked) {r link : Nat}
    (hl : link ∈ ((c.rewritten row x fresh).node r).links) :
    ((c.rewritten row x fresh).node link).symbol = .empty ∨
      ((c.rewritten row x fresh).node link).symbol = .control := by
  rw [node_rewritten _ _ _ _ (hlinked.lt_of_mem hl)]
  split_ifs with hf _ hlink
  · exact .inl rfl
  · exact .inr rfl
  · -- Only a node that stays can be linked to the row itself, and then `x` is a blank.
    have hr : r ≠ row := fun heq => hlinked.ne_of_mem hl (hlink.trans heq.symm)
    rw [hlink] at hl
    exact .inl (hx.empty_of_mem (mem_of_mem_rewritten hr hl))
  · exact .inl rfl
  · by_cases hr : r = row
    · rw [hr, hx.node_row, Node.links_atRow] at hl
      exact h.symbol_of_mem ((hx.mem_or_fresh link hl).resolve_right hf)
    · exact h.symbol_of_mem (mem_of_mem_rewritten hr hl)

/-- A control mark that is left has an owner: had it belonged to the node that is replaced, it
would have been taken away. -/
theorem owned_rewritten (hx : c.Admits row x fresh) (h : c.Tidy) {r : Nat}
    (hs : ((c.rewritten row x fresh).node r).symbol = .control) :
    ∃ gate, r ∈ ((c.rewritten row x fresh).node gate).controls := by
  by_cases hr : r < n
  · rw [node_rewritten _ _ _ _ hr] at hs
    split_ifs at hs with _ hctrl _ hstale
    · cases hs
    · exact ⟨row, by rwa [hx.node_row, Node.controls_atRow]⟩
    · exact absurd hs hx.symbol_ne
    · cases hs
    · -- The mark is old and not stale, so its owner stays.
      obtain ⟨gate, hmem⟩ := h.owned hs
      have hgate : gate ≠ row := by
        rintro rfl
        exact hstale (isStale_iff.2 (.inl ⟨hmem, hs⟩))
      have hlinks := List.ne_nil_of_mem (Node.mem_links_of_mem_controls hmem)
      exact ⟨gate, by rwa [hx.node_of_links h hgate hlinks]⟩
  · rw [node_of_le _ (Nat.not_lt.1 hr)] at hs
    cases hs

/-- A passing wire that is left lies on a link: had only the node that is replaced needed it, it
would have been taken away. -/
theorem spanned_rewritten (hx : c.Admits row x fresh) (h : c.Tidy) {r : Nat}
    (hs : ((c.rewritten row x fresh).node r).symbol = .trace) :
    ∃ gate, ∃ link ∈ ((c.rewritten row x fresh).node gate).links,
      isBetween gate link r = true := by
  have hother : ∀ {gate}, gate ≠ row →
      (∃ link ∈ (c.node gate).links, isBetween gate link r = true) →
      ∃ gate, ∃ link ∈ ((c.rewritten row x fresh).node gate).links,
        isBetween gate link r = true := by
    rintro gate hgate ⟨link, hl, hbetween⟩
    exact ⟨gate, link, by rwa [hx.node_of_links h hgate (List.ne_nil_of_mem hl)], hbetween⟩
  by_cases hr : r < n
  · rw [node_rewritten _ _ _ _ hr] at hs
    split_ifs at hs with _ _ hrow hstale
    · cases hs
    · cases hs
    · obtain ⟨gate, hgate, hspan⟩ := hx.spanned hs
      exact hother hgate (hrow ▸ hspan)
    · cases hs
    · obtain ⟨gate, hspan⟩ := h.spanned hs
      by_cases hgate : gate = row
      · -- The old node of the row needs the wire.  As it is not stale, somebody else does too: a
        -- node that stays, or the new node of the row.
        rw [hgate] at hspan
        by_cases hkeep : ∀ kept ∈ x.links, ¬ isBetween row kept r = true
        · have hspanned : c.isSpanned row r = true := by
            by_contra hno
            exact hstale (isStale_iff.2 (.inr ⟨hspan, hs, hkeep, by simpa using hno⟩))
          obtain ⟨other, hne, hspan⟩ := isSpanned_iff.1 hspanned
          exact hother hne hspan
        · simp only [Classical.not_forall, Classical.not_not] at hkeep
          obtain ⟨kept, hmem, hbetween⟩ := hkeep
          exact ⟨row, kept, by rwa [hx.node_row, Node.links_atRow], hbetween⟩
      · exact hother hgate hspan
  · rw [node_of_le _ (Nat.not_lt.1 hr)] at hs
    cases hs

end Admits

theorem Tidy.rewritten (h : c.Tidy) {row : Nat} {x : Node} {fresh : List Nat}
    (hx : c.Admits row x fresh) (hlinked : (c.rewritten row x fresh).Linked) :
    (c.rewritten row x fresh).Tidy where
  toLinked := hlinked
  proper := hx.proper_rewritten h
  eq_ofSymbol _ hs := hx.eq_ofSymbol_rewritten h hs
  symbol_of_mem hl := hx.symbol_of_mem_rewritten h hlinked hl
  owned hs := hx.owned_rewritten h hs
  spanned hs := hx.spanned_rewritten h hs

/-! ### What each write stores -/

/-- A gate without new links may stand in a row to which no node is linked. -/
theorem admits_gate {row : Nat} {x : Node} {fresh : List Nat} (hrow : row < n)
    (hx : x.symbol.isNull = false) (hproper : x.Proper) (hunlinked : ∀ r, row ∉ (c.node r).links)
    (hne : ∀ link ∈ x.links, link ≠ row)
    (hmem : ∀ link ∈ x.links, link ∈ (c.node row).links ∨ link ∈ fresh)
    (hfresh : ∀ r ∈ fresh, r ∈ x.links ∧ (c.node r).links = []) : c.Admits row x fresh where
  row_lt := hrow
  proper := hproper
  eq_ofSymbol h := by rw [hx] at h; cases h
  symbol_ne h := by rw [h] at hx; cases hx
  empty_of_mem h := absurd h (hunlinked _)
  spanned h := by rw [h] at hx; cases hx
  ne_of_mem := hne
  mem_or_fresh := hmem
  ne_of_fresh r hr := hne r (hfresh r hr).1
  links_of_fresh r hr := (hfresh r hr).2

theorem admits_blank {row : Nat} (hrow : row < n) : c.Admits row (.blank row) [] where
  row_lt := hrow
  proper := (Node.proper_ofSymbol .empty).atRow row
  eq_ofSymbol _ := by rw [Node.atRow_blank, Node.symbol_blank, Node.blank]
  symbol_ne := by simp
  empty_of_mem _ := rfl
  spanned h := by simp at h
  ne_of_mem := by simp
  mem_or_fresh := by simp
  ne_of_fresh := by simp
  links_of_fresh := by simp

theorem admits_traceMark {row : Nat} (hrow : row < n) (hunlinked : ∀ r, row ∉ (c.node r).links)
    (hspan : ∃ gate, gate ≠ row ∧ ∃ link ∈ (c.node gate).links, isBetween gate link row = true) :
    c.Admits row (.traceMark row) [] where
  row_lt := hrow
  proper := (Node.proper_ofSymbol .trace).atRow row
  eq_ofSymbol _ := by rw [Node.symbol_traceMark, Node.traceMark]; simp only [Node.atRow]
  symbol_ne := by simp
  empty_of_mem h := absurd h (hunlinked _)
  spanned _ := hspan
  ne_of_mem := by simp
  mem_or_fresh := by simp
  ne_of_fresh := by simp
  links_of_fresh := by simp

theorem Tidy.clear (h : c.Tidy) (row : Nat) : (c.clear row).Tidy := by
  by_cases hrow : row < n
  · have hlinked := h.toLinked.clear row
    rw [clear_eq_rewritten] at hlinked ⊢
    exact h.rewritten (admits_blank hrow) hlinked
  · rwa [Column.clear, overwrite_of_le (Nat.not_lt.1 hrow) (Node.links_blank row)]

theorem Tidy.fillGap (h : c.Tidy) {row gate link : Nat} (hl : link ∈ (c.node gate).links)
    (hbetween : isBetween gate link row = true) : (c.fillGap row).Tidy := by
  have hlinked := h.toLinked.fillGap row
  unfold Column.fillGap at hlinked ⊢
  split_ifs at hlinked ⊢ with hempty
  · have hlt : row < n := by
      have := lt_of_mem_links hl
      have := h.lt_of_mem hl
      rw [isBetween_iff] at hbetween
      omega
    have hgate : gate ≠ row := by
      rw [isBetween_iff] at hbetween
      omega
    rw [overwrite_eq_rewritten (by simp)] at hlinked ⊢
    exact h.rewritten (admits_traceMark hlt (h.not_mem_of_reading (beq_iff_eq.1 hempty))
      ⟨gate, hgate, link, hl, hbetween⟩) hlinked
  · exact h

/-! ### Changes -/

theorem newNode_eq_ok {g : NewGate} {x : Node} (h : newNode g = .ok x) :
    x.symbol = g.symbol ∧ x.links = [] ∧ x.Proper := by
  unfold newNode at h
  split at h
  · cases h
    exact ⟨rfl, rfl, Node.proper_ofSymbol g.symbol⟩
  · split_ifs at h with hrot
    cases h
    refine ⟨rfl, rfl, fun hs => ?_, fun hp => by simp [Node.ofSymbol] at hp⟩
    simp_all [Node.ofSymbol]

/-- A node that is edited is a gate, so nothing is linked to its row. -/
theorem Tidy.isNull_of_altered (h : c.Tidy) {row : Nat} {x : Node} {fresh : List Nat}
    (hx : (c.node row).Altered x fresh) : (c.node row).symbol.isNull = false := by
  rcases hx.isGate with hgate | hlinks
  · exact hgate
  · exact h.isNull_of_links_ne_nil hlinks

theorem Tidy.admits_altered (h : c.Tidy) {row : Nat} {x : Node} {fresh : List Nat}
    (hx : (c.node row).Altered x fresh) (hfits : c.Fits row x)
    (hfresh : ∀ r ∈ fresh, c.isFree r = true) : c.Admits row x fresh := by
  have hgate := h.isNull_of_altered hx
  refine admits_gate hfits.row_lt (by rw [hx.symbol_eq, hgate]) (hx.proper (h.proper row))
    (fun r hmem => ?_) hfits.ne_of_mem hx.mem_or_fresh
    fun r hr => ⟨hx.mem_of_fresh r hr, h.links_of_isNull (isNull_of_isFree (hfresh r hr))⟩
  rw [h.isNull_of_mem hmem] at hgate
  cases hgate

/-- A row that shows nothing admits a new gate. -/
theorem Tidy.admits_put (h : c.Tidy) {row : Nat} {g : NewGate} {x : Node}
    (hempty : c.reading row = .empty) (hnew : newNode g = .ok x) (hfits : c.Fits row x) :
    c.Admits row x [] := by
  obtain ⟨hsymbol, hlinks, hproper⟩ := newNode_eq_ok hnew
  have hgate : x.symbol.isNull = false := by
    rw [hsymbol]
    exact g.isNull_symbol
  exact admits_gate hfits.row_lt hgate hproper (h.not_mem_of_reading hempty)
    (by simp [hlinks]) (by simp [hlinks]) (by simp)

theorem Tidy.overwrite (h : c.Tidy) {row : Nat} {x : Node} (hx : c.Admits row x [])
    (hfits : c.Fits row x) : (c.overwrite row x).Tidy := by
  have hlinked := h.toLinked.overwrite hfits
  rw [overwrite_eq_rewritten fun r hr => hx.links_of_mem_controls h hr] at hlinked ⊢
  exact h.rewritten hx hlinked

theorem Tidy.link_eq (h : c.Tidy) {row new : Nat} {x : Node} (hx : c.Admits row x [new]) :
    (c.overwrite row x).clear new = c.rewritten row x [new] :=
  clear_overwrite_eq_rewritten (fun _ hr => hx.links_of_mem_controls h hr)
    (hx.links_of_fresh new (List.mem_singleton_self new))
    (hx.ne_of_fresh new (List.mem_singleton_self new))

theorem Tidy.link (h : c.Tidy) {row new : Nat} {x : Node} (hx : c.Admits row x [new])
    (hfits : c.Fits row x) : ((c.overwrite row x).clear new).Tidy := by
  have hlinked := (h.toLinked.overwrite hfits).clear new
  rw [h.link_eq hx] at hlinked ⊢
  exact h.rewritten hx hlinked

theorem Tidy.change (h : c.Tidy) {row : Nat} (hchange : c.Change row c') : c'.Tidy := by
  cases hchange with
  | keep => exact h
  | put hempty hnew hfits => exact h.overwrite (h.admits_put hempty hnew hfits) hfits
  | revise hx hfits => exact h.overwrite (h.admits_altered hx hfits (by simp)) hfits
  | @link x new hx hfree hfits =>
    exact h.link (h.admits_altered hx hfits (by simpa using hfree)) hfits
  | @stretch x new gap hx hfree hfits hgap =>
    have hadmits : c.Admits row x [new] := h.admits_altered hx hfits (by simpa using hfree)
    have hlink : new ∈ (((c.overwrite row x).clear new).node row).links := by
      rw [h.link_eq hadmits, hadmits.node_row, Node.links_atRow]
      exact hx.mem_of_fresh new (List.mem_singleton_self new)
    exact (h.link hadmits hfits).fillGap hlink hgap

theorem Tidy.foldl_clear (h : c.Tidy) (rows : List Nat) : (rows.foldl Column.clear c).Tidy := by
  induction rows generalizing c with
  | nil => exact h
  | cons r rest ih => exact ih (h.clear r)

theorem Tidy.deleteGate (h : c.Tidy) (row : Nat) : (c.deleteGate row).Tidy :=
  h.foldl_clear _

theorem Tidy.step (h : c.Tidy) (hstep : c.Step c') : c'.Tidy := by
  cases hstep with
  | change hchange => exact h.change hchange
  | delete gate => exact h.deleteGate gate

end Column

end QuantumCircuit

import QuantumCircuit.Proofs.Column.Change

/-!
# Columns with sound links

`Linked` is what every column satisfies, whatever nodes its caller puts into it: a node knows its
row, its controls act on it, its links are different rows of the column other than its own, and
no two nodes are linked to one row.  A placement keeps it (`Linked.place`), and so does
everything that is made of placements: `Linked.change` and `Linked.deleteGate`.

Nothing is said about what a linked row holds: a caller may put a gate on top of a control input
or of a swap partner.
-/

namespace QuantumCircuit

namespace Column

variable {n : Nat} {c c' : Column n}

/-- Every node of the column knows its row and has sound links, and each row has one owner. -/
structure Linked (c : Column n) : Prop where
  row_node : ∀ r, (c.node r).row = r
  controlsAct : ∀ r, (c.node r).controlsAct = true
  nodup_links : ∀ r, (c.node r).links.Nodup
  lt_of_mem : ∀ {r link}, link ∈ (c.node r).links → link < n
  ne_of_mem : ∀ {r link}, link ∈ (c.node r).links → link ≠ r
  owner_eq : ∀ {r s link}, link ∈ (c.node r).links → link ∈ (c.node s).links → r = s

theorem controlsAct_blank (r : Nat) : (Node.blank r).controlsAct = true := rfl

theorem controlsAct_controlMark (r : Nat) : (Node.controlMark r).controlsAct = true := rfl

theorem linked_blank : (blank : Column n).Linked where
  row_node r := by simp [Node.blank, Node.atRow]
  controlsAct r := by rw [node_blank, controlsAct_blank]
  nodup_links r := by simp
  lt_of_mem h := by simp at h
  ne_of_mem h := by simp at h
  owner_eq h := by simp at h

/-! ### Placements -/

/-- What holds of the new node, of marks and blanks, and of all old nodes holds of every node
after a placement. -/
theorem forall_node_overwrite {P : Nat → Node → Prop} {row : Nat} {x : Node}
    (hmark : ∀ r, P r (.controlMark r)) (hx : P row (x.atRow row)) (hblank : ∀ r, P r (.blank r))
    (hold : ∀ r, P r (c.node r)) (r : Nat) : P r ((c.overwrite row x).node r) := by
  by_cases hr : r < n
  · rcases node_overwrite_cases c row x hr with ⟨-, heq⟩ | ⟨-, rfl, heq⟩ | ⟨-, -, heq | heq⟩ <;>
      rw [heq]
    · exact hmark r
    · exact hx
    · exact hold r
    · exact hblank r
  · rw [node_of_le _ (Nat.not_lt.1 hr)]
    exact hblank r

/-- After a placement a link is one of the new node or an old link of another row. -/
theorem mem_links_overwrite {row : Nat} {x : Node} {r link : Nat}
    (h : link ∈ ((c.overwrite row x).node r).links) :
    (r = row ∧ link ∈ x.links) ∨
      (r ≠ row ∧ r ∉ x.controls ∧ link ∈ (c.node r).links) := by
  rcases node_overwrite_cases c row x (lt_of_mem_links h) with
    ⟨-, heq⟩ | ⟨-, hrow, heq⟩ | ⟨hx, hrow, heq | heq⟩ <;> rw [heq] at h
  · simp at h
  · exact .inl ⟨hrow, h⟩
  · exact .inr ⟨hrow, hx, h⟩
  · simp at h

theorem Linked.overwrite (h : c.Linked) {row : Nat} {x : Node} (hfits : c.Fits row x) :
    (c.overwrite row x).Linked := by
  -- A link of the new node is no link of a row that stays, for `Fits` has looked at those.
  have hnew : ∀ {link s}, link ∈ x.links → s ≠ row → s ∉ x.controls →
      link ∉ (c.node s).links := by
    intro link s hx hs hsx hmem
    rcases hfits.overwritten_of_mem link hx s hmem with heq | hctrl | hrow
    · exact h.ne_of_mem hmem heq.symm
    · exact hsx hctrl
    · exact hs hrow
  refine ⟨?_, ?_, ?_, fun {r link} hl => ?_, fun {r link} hl => ?_, fun {r s link} hl hs => ?_⟩
  · exact forall_node_overwrite (P := fun r y => y.row = r) (fun _ => rfl) rfl (fun _ => rfl)
      h.row_node
  · exact forall_node_overwrite (P := fun _ y => y.controlsAct = true) controlsAct_controlMark
      hfits.controlsAct controlsAct_blank h.controlsAct
  · exact forall_node_overwrite (P := fun _ y => y.links.Nodup) (by simp) hfits.nodup_links
      (by simp) h.nodup_links
  · rcases mem_links_overwrite hl with ⟨-, hx⟩ | ⟨-, -, hmem⟩
    · exact hfits.lt_of_mem link hx
    · exact h.lt_of_mem hmem
  · rcases mem_links_overwrite hl with ⟨rfl, hx⟩ | ⟨-, -, hmem⟩
    · exact hfits.ne_of_mem link hx
    · exact h.ne_of_mem hmem
  · rcases mem_links_overwrite hl with ⟨rfl, hx⟩ | ⟨hr, hrx, hmem⟩ <;>
      rcases mem_links_overwrite hs with ⟨rfl, hy⟩ | ⟨hs, hsx, hmem'⟩
    · rfl
    · exact absurd hmem' (hnew hx hs hsx)
    · exact absurd hmem (hnew hy hr hrx)
    · exact h.owner_eq hmem hmem'

theorem Linked.place (h : c.Linked) {row : Nat} {x : Node} (hplace : c.place row x = .ok c') :
    c'.Linked := by
  obtain ⟨hfits, rfl⟩ := place_eq_ok hplace
  exact h.overwrite hfits

theorem overwrite_of_le {row : Nat} (hrow : n ≤ row) {x : Node} (hx : x.links = []) :
    c.overwrite row x = c := by
  have hcontrols := Node.controls_eq_nil_of_links hx
  have hlinks : (c.node row).links = [] := by rw [node_of_le _ hrow, Node.links_blank]
  rw [overwrite_eq_rewritten (by simp [hcontrols])]
  refine ext_node fun r hr => ?_
  rw [node_rewritten _ _ _ _ hr, isStale_of_links_nil hlinks, hcontrols,
    if_neg List.not_mem_nil, if_neg List.not_mem_nil, if_neg (by omega), if_neg (by simp)]

/-- A node fits in the place of one that has its links and perhaps others. -/
theorem Linked.fits_of_sublist (h : c.Linked) {row : Nat} {x : Node} (hrow : row < n)
    (hlinks : x.links.Sublist (c.node row).links) (hact : x.controlsAct = true) :
    c.Fits row x where
  row_lt := hrow
  controlsAct := hact
  nodup_links := (h.nodup_links row).sublist hlinks
  lt_of_mem _ hl := h.lt_of_mem (hlinks.subset hl)
  ne_of_mem _ hl := h.ne_of_mem (hlinks.subset hl)
  overwritten_of_mem _ hl _ hother := .inr (.inr (h.owner_eq hother (hlinks.subset hl)))

/-- A node without links can be put anywhere. -/
theorem Linked.overwrite_of_links_nil (h : c.Linked) (row : Nat) {x : Node} (hx : x.links = []) :
    (c.overwrite row x).Linked := by
  by_cases hrow : row < n
  · exact h.overwrite (fits_of_links_nil hrow hx)
  · rwa [overwrite_of_le (Nat.not_lt.1 hrow) hx]

theorem Linked.clear (h : c.Linked) (row : Nat) : (c.clear row).Linked :=
  h.overwrite_of_links_nil row (Node.links_blank row)

theorem Linked.fillGap (h : c.Linked) (row : Nat) : (c.fillGap row).Linked := by
  unfold Column.fillGap
  split
  · exact h.overwrite_of_links_nil row (Node.links_traceMark row)
  · exact h

/-! ### Edits -/

theorem Linked.change (h : c.Linked) {row : Nat} (hchange : c.Change row c') : c'.Linked := by
  cases hchange with
  | keep => exact h
  | put _ _ hfits => exact h.overwrite hfits
  | revise _ hfits => exact h.overwrite hfits
  | link _ _ hfits => exact (h.overwrite hfits).clear _
  | stretch _ _ hfits _ => exact ((h.overwrite hfits).clear _).fillGap _

theorem Linked.foldl_clear (h : c.Linked) (rows : List Nat) :
    (rows.foldl Column.clear c).Linked := by
  induction rows generalizing c with
  | nil => exact h
  | cons r rest ih => exact ih (h.clear r)

theorem Linked.deleteGate (h : c.Linked) (row : Nat) : (c.deleteGate row).Linked :=
  h.foldl_clear _

theorem Linked.step (h : c.Linked) (hstep : c.Step c') : c'.Linked := by
  cases hstep with
  | change hchange => exact h.change hchange
  | delete gate => exact h.deleteGate gate

/-- The far end of a gate in the column is a row of the column. -/
theorem Linked.farEnd_lt (h : c.Linked) {row : Nat} (hrow : row < n) :
    farEnd (c.node row) row < n := by
  have hcontrols : ∀ {r}, r ∈ (c.node row).controls → r < n := fun hr =>
    h.lt_of_mem (Node.mem_links_of_mem_controls hr)
  have hfirst : ∀ {r}, (c.node row).control = some r → r < n := fun hr =>
    hcontrols (Node.mem_controls.2 (.inl hr))
  have hsecond : ∀ {r}, (c.node row).secondControl = some r → r < n := fun hr =>
    hcontrols (Node.mem_controls.2 (.inr hr))
  unfold farEnd
  split
  case h_1 a b ha hb =>
    unfold farther
    split
    · exact hsecond hb
    · exact hfirst ha
  case h_2 a ha _ => exact hfirst ha
  case h_3 a _ hb => exact hsecond hb
  case h_4 =>
    cases hp : (c.node row).partner with
    | none => exact hrow
    | some p => exact h.lt_of_mem (Node.mem_links.2 (.inr hp))

end Column

end QuantumCircuit

import QuantumCircuit.Proofs.History

/-!
# Consistency of edited circuits

What a tidy column means for the cells of a circuit.

* `links_consistent` : links stay in their column, every row has at most one owner, and a linked
  row holds nothing or a control mark;
* `marks_needed` : a control mark has exactly one owner, a passing wire lies on a link and is free
  of links itself, and a cell reads as a control input exactly if a controlled gate owns it.
-/

namespace QuantumCircuit

/-- A node with a control is of a controlled kind. -/
theorem Node.isControlled_of_mem {x : Node} (h : x.controlsAct = true) {row : Nat}
    (hrow : row ∈ x.controls) : x.kind.isControlled = true := by
  have hne : x.controls.isEmpty = false := by
    rw [List.isEmpty_eq_false_iff]
    exact List.ne_nil_of_mem hrow
  have hact := (Bool.and_eq_true_iff.1 h).1
  rwa [hne, Bool.false_or] at hact

namespace Column

variable {n : Nat} {c : Column n}

/-- A row that shows a control input is owned by one gate, which is of a controlled kind. -/
theorem Tidy.controller?_of_reading (h : c.Tidy) {row : Nat} (hr : c.reading row = .control) :
    ∃ gate, c.controller? row = some gate := by
  rcases reading_eq_control_iff.1 hr with hs | ⟨-, hsome⟩
  · obtain ⟨gate, hmem⟩ := h.owned hs
    have hne : gate ≠ row := fun heq =>
      h.ne_of_mem (Node.mem_links_of_mem_controls hmem) heq.symm
    exact Option.isSome_iff_exists.1 (isSome_controller?_iff.2 ⟨gate, hne, hmem⟩)
  · exact Option.isSome_iff_exists.1 hsome

theorem Tidy.reading_of_mem_controls (h : c.Tidy) {row gate : Nat}
    (hmem : row ∈ (c.node gate).controls) : c.reading row = .control := by
  have hlink := Node.mem_links_of_mem_controls hmem
  rcases h.symbol_of_mem hlink with hs | hs
  · have hne : gate ≠ row := (h.ne_of_mem hlink).symm
    exact reading_eq_control_iff.2 (.inr ⟨hs, isSome_controller?_iff.2 ⟨gate, hne, hmem⟩⟩)
  · exact reading_eq_control_iff.2 (.inl hs)

end Column

namespace Circuit

variable {n d : Nat} {c : Circuit n d}

/-- Links in an edited circuit are consistent: each node knows its row, its links are different
other rows of the column, no two nodes of a column are linked to one row, and a linked row holds
nothing or a control mark, and no links of its own. -/
theorem links_consistent (h : c.EditReachable) (col : Nat) :
    (∀ row, (c.node ⟨row, col⟩).row = row) ∧
    (∀ row, (c.node ⟨row, col⟩).links.Nodup) ∧
    (∀ row, ∀ link ∈ (c.node ⟨row, col⟩).links, link < n ∧ link ≠ row ∧
      ((c.node ⟨link, col⟩).kind = .empty ∨ (c.node ⟨link, col⟩).kind = .control) ∧
      (c.node ⟨link, col⟩).links = []) ∧
    (∀ row other link, link ∈ (c.node ⟨row, col⟩).links →
      link ∈ (c.node ⟨other, col⟩).links → row = other) := by
  have htidy := h.tidy col
  refine ⟨htidy.row_node, htidy.nodup_links, fun row link hl => ?_, fun _ _ _ => htidy.owner_eq⟩
  refine ⟨htidy.lt_of_mem hl, htidy.ne_of_mem hl, ?_,
    htidy.links_of_isNull (htidy.isNull_of_mem hl)⟩
  exact (htidy.symbol_of_mem hl).imp (Node.kind_eq_plain_iff rfl).2 (Node.kind_eq_plain_iff rfl).2

/-- A doubly controlled gate in row 2 of five, after its first control has moved away from it and
left a passing wire behind. -/
def stretched : Circuit 5 1 :=
  (((blank.after (.command (.place ⟨2, 0⟩ (.plain .x) []))).after
    (.edit 0 (.attachControl 2 1))).after
    (.command (.moveControl ⟨2, 0⟩ .up))).after
    (.edit 0 (.attachSecondControl 2 4))

theorem editReachable_stretched : stretched.EditReachable :=
  (((EditReachable.blank.after _ rfl).after _ rfl).after _ rfl).after _ rfl

theorem links_consistent_stretched :
    stretched.EditReachable ∧ (stretched.node ⟨2, 0⟩).links = [0, 4] ∧
      (stretched.node ⟨2, 0⟩).row = 2 ∧
      ((stretched.node ⟨0, 0⟩).kind = .empty ∨ (stretched.node ⟨0, 0⟩).kind = .control) ∧
      (stretched.node ⟨4, 0⟩).links = [] :=
  have hlinks : (stretched.node ⟨2, 0⟩).links = [0, 4] := by decide +kernel
  have h := links_consistent editReachable_stretched 0
  ⟨editReachable_stretched, hlinks, h.1 2, (h.2.2.1 2 0 (by simp [hlinks])).2.2.1,
    (h.2.2.1 2 4 (by simp [hlinks])).2.2.2⟩

/-- No mark in an edited circuit is left over.  A control mark belongs to exactly one other node;
a passing wire is linked to by no node, and lies between a gate and one of its links; and a cell
reads as a control input if and only if the scan for its gate finds one, which is then the only
one, and of a controlled kind. -/
theorem marks_needed (h : c.EditReachable) :
    (∀ row col, (c.node ⟨row, col⟩).kind = .control →
      ∃ gate, gate ≠ row ∧ row ∈ (c.node ⟨gate, col⟩).controls ∧
        ∀ other, row ∈ (c.node ⟨other, col⟩).links → other = gate) ∧
    (∀ row col, (c.node ⟨row, col⟩).kind = .trace →
      (∀ gate, row ∉ (c.node ⟨gate, col⟩).links) ∧
        ∃ gate, ∃ link ∈ (c.node ⟨gate, col⟩).links,
          gate < row ∧ row < link ∨ link < row ∧ row < gate) ∧
    (∀ cell, c.reading? cell = .ok .control ↔ (c.controller? cell).isSome = true) ∧
    (∀ cell gate, c.controller? cell = some gate →
      (c.node ⟨gate, cell.col⟩).kind.isControlled = true ∧
        cell.row ∈ (c.node ⟨gate, cell.col⟩).controls ∧
        ∀ other, cell.row ∈ (c.node ⟨other, cell.col⟩).controls → other = gate) := by
  refine ⟨fun row col hk => ?_, fun row col hk => ?_, fun cell => ?_, fun cell gate hgate => ?_⟩
  · have htidy := h.tidy col
    obtain ⟨gate, hmem⟩ := htidy.owned ((Node.kind_eq_plain_iff rfl).1 hk)
    have hlink := Node.mem_links_of_mem_controls hmem
    exact ⟨gate, (htidy.ne_of_mem hlink).symm, hmem, fun other ho => htidy.owner_eq ho hlink⟩
  · have htidy := h.tidy col
    have hs : ((c.column col).node row).symbol = .trace := (Node.kind_eq_plain_iff rfl).1 hk
    refine ⟨fun gate hl => ?_, ?_⟩
    · rcases htidy.symbol_of_mem hl with he | he <;> rw [hs] at he <;> cases he
    · obtain ⟨gate, link, hl, hbetween⟩ := htidy.spanned hs
      exact ⟨gate, link, hl, Column.isBetween_iff.1 hbetween⟩
  · have htidy := h.tidy cell.col
    constructor
    · intro hr
      have hreading : (c.column cell.col).reading cell.row = .control := by
        obtain ⟨_, -, hr⟩ := Column.map_eq_ok hr
        exact hr
      exact Option.isSome_iff_exists.2 (htidy.controller?_of_reading hreading)
    · intro hsome
      obtain ⟨gate, hgate⟩ := Option.isSome_iff_exists.1 hsome
      obtain ⟨-, hmem⟩ := Column.controller?_eq_some hgate
      have hlink : cell.row ∈ ((c.column cell.col).node gate).links :=
        Node.mem_links_of_mem_controls hmem
      -- A column past the last one is blank, so a cell that is linked to lies in the circuit.
      have hcol : cell.col < d := by
        by_contra hcol
        rw [column, dif_neg hcol, Column.node_blank] at hlink
        simp at hlink
      have hcell : c.contains cell = true := by
        simp [contains, htidy.lt_of_mem hlink, hcol]
      rw [reading?, checkCell, if_pos hcell]
      exact congrArg Except.ok (htidy.reading_of_mem_controls hmem)
  · have htidy := h.tidy cell.col
    obtain ⟨-, hmem⟩ := Column.controller?_eq_some hgate
    exact ⟨Node.isControlled_of_mem (htidy.controlsAct gate) hmem, hmem,
      fun other ho => htidy.owner_eq (Node.mem_links_of_mem_controls ho)
        (Node.mem_links_of_mem_controls hmem)⟩

theorem marks_needed_stretched :
    stretched.EditReachable ∧ (stretched.node ⟨1, 0⟩).kind = .trace ∧
      (stretched.node ⟨0, 0⟩).kind = .control ∧
      (∃ gate, gate ≠ 0 ∧ 0 ∈ (stretched.node ⟨gate, 0⟩).controls ∧
        ∀ other, 0 ∈ (stretched.node ⟨other, 0⟩).links → other = gate) ∧
      ∀ gate, 1 ∉ (stretched.node ⟨gate, 0⟩).links :=
  have htrace : (stretched.node ⟨1, 0⟩).kind = .trace := by decide +kernel
  have hcontrol : (stretched.node ⟨0, 0⟩).kind = .control := by decide +kernel
  have h := marks_needed editReachable_stretched
  ⟨editReachable_stretched, htrace, hcontrol, h.1 0 0 hcontrol, (h.2.1 1 0 htrace).1⟩

end Circuit

end QuantumCircuit

import QuantumCircuit.Proofs.Linking

/-!
# Second controls

A gate has one second control.  It is asked only whether the gate would be a doubly controlled X
with the new one, and this holds of a gate that is one already as well.

* `second_control_added` : so a second control that is added takes the place of the old one, if there
  is one.  The first control stays, and no other control input of the circuit is lost;
* `second_control_lost` : a gate that is given a second control twice has lost the first of the two.
-/

namespace QuantumCircuit

namespace Circuit

variable {n d : Nat} {c c' : Circuit n d} {gate : Cell} {row : Nat} {told : Option Nat}

/-- The circuit `c'` is `c` with a new second control of a gate, in a row that is no control of it
yet. -/
structure SecondAdded (c : Circuit n d) (gate : Cell) (row : Nat) (c' : Circuit n d) : Prop where
  controls : ∃ first, (c.node gate).control = some first ∧ (c'.node gate).controls = [first, row]
  not_mem : row ∉ (c.node gate).controls
  /-- Only the old second control is lost, if there is one. -/
  reading_control : ∀ cell, c.reading cell = .control →
    (∀ old, (c.node gate).secondControl = some old → cell ≠ ⟨old, gate.col⟩) →
    c'.reading cell = .control
  reading_old : ∀ old, (c.node gate).secondControl = some old →
    c'.reading ⟨old, gate.col⟩ = .empty

theorem EditReachable.secondAdded (h : c.EditReachable) (hcol : gate.col < d)
    (ha : (c.column gate.col).Attachable .secondControl gate.row row) :
    c.SecondAdded gate row (c.withColumn gate.col
      ((c.column gate.col).withLink .secondControl gate.row row)) := by
  have htidy := h.tidy gate.col
  have hattached := ha.attached htidy
  have hcolumn := column_withColumn (c := c) hcol
    ((c.column gate.col).withLink .secondControl gate.row row)
  refine ⟨?_, ?_, fun cell hcell hold => ?_, fun old hold => ?_⟩
  · -- With a second control alone the gate would not be doubly controlled.
    have hact := ha.allows.controlsAct (htidy.controlsAct gate.row)
    obtain ⟨first, hfirst⟩ := Option.isSome_iff_exists.1 ((Node.tells_kind hact).control_of_second rfl)
    have hcontrol : (c.node gate).control = some first := hfirst
    refine ⟨first, hcontrol, ?_⟩
    rw [node, hcolumn, if_pos rfl, hattached.node_gate]
    show (c.node gate).control.toList ++ [row] = [first, row]
    rw [hcontrol]
    rfl
  · exact fun hmem =>
      htidy.not_mem_of_isFree ha.isFree gate.row (Node.mem_links_of_mem_controls hmem)
  · rw [reading, hcolumn]
    split_ifs with hk
    · rw [reading, hk] at hcell
      refine ha.reading_control htidy hcell fun hsecond => hold cell.row hsecond ?_
      rw [← hk]
    · exact hcell
  · rw [reading, hcolumn, if_pos rfl]
    exact hattached.reading_old old hold

/-- The search for a row ends in an edit that links it. -/
theorem exists_apply_of_addSecondControl
    (hok : Editor.attempt c (.addSecondControl gate) = .ok (c', told)) :
    ∃ row, told = some row ∧
      c.apply gate.col (.attachSecondControl gate.row row) = .ok (c', some row) := by
  rw [Editor.attempt] at hok
  obtain ⟨hcol, column, hadd, rfl⟩ := edit_eq_ok_iff.1 hok
  obtain ⟨_, hsearch, heq⟩ := Column.map_eq_ok hadd
  cases heq
  obtain ⟨_, -, hfirst⟩ := Column.bind_eq_ok hsearch
  obtain ⟨row, -, htried⟩ := Column.firstUnoccupied_eq_ok hfirst
  obtain ⟨_, hattach, heq⟩ := Column.map_eq_ok htried
  cases heq
  exact ⟨row, rfl, edit_eq_ok_iff.2 ⟨hcol, _, congrArg (Except.map _) hattach, rfl⟩⟩

/-- Adding a second control in an edited circuit.  If it is done, in a given row or in one that is
looked for, the row is told.  The gate has a first control, and then that one and the row as its
controls, and the row was none of them before.  A row that shows a control input goes on showing it,
unless it was the second control of the gate; that one shows nothing then.  So if the gate has a
first control alone, no control input is lost. -/
theorem second_control_added (h : c.EditReachable) (gate : Cell) :
    (∀ row c' told, c.apply gate.col (.attachSecondControl gate.row row) = .ok (c', told) →
      told = some row ∧ c.SecondAdded gate row c') ∧
    ∀ c' told, Editor.attempt c (.addSecondControl gate) = .ok (c', told) →
      ∃ row, told = some row ∧ c.SecondAdded gate row c' := by
  have hadded : ∀ row c' told,
      c.apply gate.col (.attachSecondControl gate.row row) = .ok (c', told) →
      told = some row ∧ c.SecondAdded gate row c' := by
    intro row c' told hok
    obtain ⟨rfl, hcol, ha, rfl⟩ := (h.apply_edit_eq_ok_iff (l := .secondControl)).1 hok
    exact ⟨rfl, h.secondAdded hcol ha⟩
  refine ⟨hadded, fun c' told hok => ?_⟩
  obtain ⟨row, rfl, happly⟩ := exists_apply_of_addSecondControl hok
  exact ⟨row, rfl, (hadded row c' _ happly).2⟩

/-- An X in row 1 of four, controlled from row 0. -/
def steered : Circuit 4 1 :=
  (blank.after (.command (.place ⟨1, 0⟩ (.plain .x) []))).after
    (.command (.toggleControl ⟨1, 0⟩))

theorem editReachable_steered : steered.EditReachable := (EditReachable.blank.after _ rfl).after _ rfl

/-- Either way the X comes to have two controls, and row 0 stays the first of them. -/
theorem second_control_added_steered :
    steered.EditReachable ∧ (steered.node ⟨1, 0⟩).controls = [0] ∧
      steered.reading ⟨0, 0⟩ = .control ∧
      (∃ c', steered.apply 0 (.attachSecondControl 1 3) = .ok (c', some 3) ∧
        (c'.node ⟨1, 0⟩).controls = [0, 3] ∧ c'.reading ⟨0, 0⟩ = .control) ∧
      ∃ c', Editor.attempt steered (.addSecondControl ⟨1, 0⟩) = .ok (c', some 2) ∧
        (c'.node ⟨1, 0⟩).controls = [0, 2] ∧ c'.reading ⟨0, 0⟩ = .control := by
  have hcontrol : (steered.node ⟨1, 0⟩).control = some 0 := by decide +kernel
  have hsecond : (steered.node ⟨1, 0⟩).secondControl = none := by decide +kernel
  have hreading : steered.reading ⟨0, 0⟩ = .control := by decide +kernel
  have hstays : ∀ {c' row}, steered.SecondAdded ⟨1, 0⟩ row c' →
      (c'.node ⟨1, 0⟩).controls = [0, row] ∧ c'.reading ⟨0, 0⟩ = .control := by
    intro c' row hadded
    obtain ⟨first, hfirst, hcontrols⟩ := hadded.controls
    rw [hcontrol] at hfirst
    cases hfirst
    refine ⟨hcontrols, hadded.reading_control ⟨0, 0⟩ hreading fun old hold => ?_⟩
    rw [hsecond] at hold
    cases hold
  have htold : (steered.apply 0 (.attachSecondControl 1 3)).map (·.2) = .ok (some 3) := by
    decide +kernel
  have htold' : (Editor.attempt steered (.addSecondControl ⟨1, 0⟩)).map (·.2) = .ok (some 2) := by
    decide +kernel
  obtain ⟨⟨c', _⟩, hok, rfl⟩ := Column.map_eq_ok htold
  obtain ⟨⟨e', _⟩, hok', rfl⟩ := Column.map_eq_ok htold'
  obtain ⟨-, hadded⟩ := (second_control_added editReachable_steered ⟨1, 0⟩).1 3 c' _ hok
  obtain ⟨_, heq, hadded'⟩ := (second_control_added editReachable_steered ⟨1, 0⟩).2 e' _ hok'
  cases heq
  exact ⟨editReachable_steered, by decide +kernel, hreading, ⟨c', hok, hstays hadded⟩,
    e', hok', hstays hadded'⟩

/-- The X with a second control, in row 2. -/
def doubled : Circuit 4 1 := steered.after (.command (.addSecondControl ⟨1, 0⟩))

/-- A further second control is added in row 3, and row 2 is a control no longer. -/
theorem second_control_lost :
    doubled.EditReachable ∧ (doubled.node ⟨1, 0⟩).controls = [0, 2] ∧
      doubled.reading ⟨2, 0⟩ = .control ∧
      doubled.outcome (.command (.addSecondControl ⟨1, 0⟩)) = .ok (some 3) ∧
      ((doubled.after (.command (.addSecondControl ⟨1, 0⟩))).node ⟨1, 0⟩).controls = [0, 3] ∧
      (doubled.after (.command (.addSecondControl ⟨1, 0⟩))).reading ⟨2, 0⟩ = .empty := by
  refine ⟨editReachable_steered.after _ rfl, ?_, ?_, ?_, ?_, ?_⟩
  all_goals decide +kernel

end Circuit

end QuantumCircuit

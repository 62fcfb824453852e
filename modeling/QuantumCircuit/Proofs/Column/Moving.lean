import QuantumCircuit.Proofs.Column.Attachment

/-!
# Moving a control

A control moves to the next row in a direction, and where that is the row of its gate, to the one
beyond it.  `IsNext` says this without counting steps: nothing but the gate lies in between.  So it
is the same said from the other end (`IsNext.opposite`), and this is why a control can always go
back.

* `Tidy.moveControl_cases` : in a tidy column a control moves exactly if the next row is free
  (`Movable`), and otherwise it is blocked;
* `Movable.moved` : what the column shows afterwards (`Moved`);
* `Movable.back` : then the control can move in the opposite direction, to where it was.
-/

namespace QuantumCircuit

namespace Direction

/-- The direction back. -/
def opposite : Direction → Direction
  | up => down
  | down => up
  | left => right
  | right => left

end Direction

namespace Column

variable {n : Nat} {c : Column n} {gate old row : Nat} {d : Direction}

/-! ### The next row -/

/-- Of `n` rows, `row` is the next after `old` in a direction when the row of the gate is left
out. -/
def IsNext (n gate old row : Nat) : Direction → Prop
  | .up => row < old ∧ row ≠ gate ∧ ∀ q, row < q → q < old → q = gate
  | .down => old < row ∧ row < n ∧ row ≠ gate ∧ ∀ q, old < q → q < row → q = gate
  | .left | .right => False

/-- The next row is one row further, and two if the gate is one row further. -/
theorem isNext_up_iff : IsNext n gate old row .up ↔
    row + 1 = old ∧ row ≠ gate ∨ row + 2 = old ∧ row + 1 = gate := by
  constructor
  · rintro ⟨hlt, hne, hgate⟩
    have hfirst := hgate (row + 1)
    have hsecond := hgate (row + 2)
    clear hgate
    omega
  · rintro (⟨h, hne⟩ | ⟨h, hgate⟩)
    · exact ⟨by omega, hne, fun q _ _ => by omega⟩
    · exact ⟨by omega, by omega, fun q _ _ => by omega⟩

theorem isNext_down_iff : IsNext n gate old row .down ↔
    row < n ∧ (old + 1 = row ∧ row ≠ gate ∨ old + 2 = row ∧ old + 1 = gate) := by
  constructor
  · rintro ⟨hlt, hn, hne, hgate⟩
    have hfirst := hgate (old + 1)
    have hsecond := hgate (old + 2)
    clear hgate
    omega
  · rintro ⟨hn, ⟨h, hne⟩ | ⟨h, hgate⟩⟩
    · exact ⟨by omega, hn, by omega, fun q _ _ => by omega⟩
    · exact ⟨by omega, hn, by omega, fun q _ _ => by omega⟩

theorem controlStep?_eq_some_iff :
    controlStep? n gate old d = some row ↔ IsNext n gate old row d := by
  have hstep : controlStep? n gate old d = some row ↔ ∃ next, d.nextRow? n old = some next ∧
      (next = gate ∧ d.nextRow? n next = some row ∨ next ≠ gate ∧ next = row) := by
    rw [controlStep?, Option.bind_eq_some_iff]
    refine exists_congr fun next => and_congr_right fun _ => ?_
    split_ifs with hgate <;> simp [hgate]
  rw [hstep]
  cases d with
  | up =>
    simp only [Direction.nextRow?_up_iff, isNext_up_iff]
    constructor
    · rintro ⟨next, h, h'⟩
      omega
    · rintro (⟨h, hne⟩ | ⟨h, hgate⟩)
      · exact ⟨row, h, .inr ⟨hne, rfl⟩⟩
      · exact ⟨gate, by omega, .inl ⟨rfl, hgate⟩⟩
  | down =>
    simp only [Direction.nextRow?_down_iff, isNext_down_iff]
    constructor
    · rintro ⟨next, h, h'⟩
      omega
    · rintro ⟨hlt, ⟨h, hne⟩ | ⟨h, hgate⟩⟩
      · exact ⟨row, ⟨h, hlt⟩, .inr ⟨hne, rfl⟩⟩
      · exact ⟨gate, by omega, .inl ⟨rfl, by omega⟩⟩
  | left => simp [Direction.nextRow?, IsNext]
  | right => simp [Direction.nextRow?, IsNext]

namespace IsNext

theorem opposite (h : IsNext n gate old row d) (hlt : old < n) (hne : old ≠ gate) :
    IsNext n gate row old d.opposite := by
  cases d with
  | up => exact ⟨h.1, hlt, hne, h.2.2⟩
  | down => exact ⟨h.1, hne, h.2.2.2⟩
  | left => cases h
  | right => cases h

theorem row_lt (h : IsNext n gate old row d) (hlt : old < n) : row < n := by
  cases d with
  | up => exact Nat.lt_trans h.1 hlt
  | down => exact h.2.1
  | left => cases h
  | right => cases h

theorem ne_gate (h : IsNext n gate old row d) : row ≠ gate := by
  cases d with
  | up => exact h.2.1
  | down => exact h.2.2.1
  | left => cases h
  | right => cases h

/-- The row that may become a passing wire is the one that the control leaves. -/
theorem gap?_eq (h : IsNext n gate old row d) :
    gap? gate row d = if isBetween gate row old then some old else none := by
  cases d with
  | up =>
    rw [isNext_up_iff] at h
    simp only [gap?]
    by_cases hold : old < gate
    · rw [if_pos (by simp; omega), if_pos (isBetween_iff.2 (by omega))]
      congr 1
      omega
    · rw [if_neg (by simp; omega), if_neg (by rw [isBetween_iff]; omega)]
  | down =>
    rw [isNext_down_iff] at h
    simp only [gap?]
    by_cases hold : gate < old
    · rw [if_pos (by simp; omega), if_pos (isBetween_iff.2 (by omega))]
      congr 1
      omega
    · rw [if_neg (by simp; omega), if_neg (by rw [isBetween_iff]; omega)]
  | left => cases h
  | right => cases h

end IsNext

/-! ### When a control moves -/

/-- The only control of the gate in a row stands in row `old`, and the next row is free. -/
structure Movable (c : Column n) (gate : Nat) (d : Direction) (old row : Nat) : Prop where
  control : (c.node gate).control = some old
  second : (c.node gate).secondControl = none
  next : IsNext n gate old row d
  isFree : c.isFree row = true

/-- The column in which the control of a gate has moved from row `old` to another row. -/
def afterMove (c : Column n) (gate old row : Nat) : Column n :=
  if isBetween gate row old then (c.withLink .control gate row).fillGap old
  else c.withLink .control gate row

namespace Movable

theorem mem_links (hm : c.Movable gate d old row) : old ∈ (c.node gate).links :=
  Node.mem_links_of_mem_controls (Node.mem_controls.2 (.inl hm.control))

/-- A gate takes its control in another row as well. -/
theorem attachable (hm : c.Movable gate d old row) (h : c.Tidy) :
    c.Attachable .control gate row where
  gate_lt := lt_of_mem_links hm.mem_links
  row_lt := hm.next.row_lt (h.lt_of_mem hm.mem_links)
  allows := by
    have hkind := Node.isControlled_of_mem (h.controlsAct gate)
      (Node.mem_controls.2 (.inl hm.control))
    rw [Node.kind, hm.control] at hkind
    exact hkind
  ne := hm.next.ne_gate
  isFree := hm.isFree

theorem moveControl_eq_ok (hm : c.Movable gate d old row) (h : c.Tidy) :
    c.moveControl gate d = .ok (c.afterMove gate old row, row) := by
  have ha := hm.attachable h
  have hplace : c.place gate { c.node gate with control := some row } = .ok _ :=
    place_eq_ok_iff.2 ⟨placeFault?_eq_none_iff.2 (ha.fits h), rfl⟩
  have hmoved : (c.overwrite gate { c.node gate with control := some row }).clear row =
      c.withLink .control gate row := h.link_eq (ha.admits h)
  rw [moveControl, checkRow, if_pos ha.gate_lt, hm.control, hm.second]
  dsimp only [bind, Except.bind]
  rw [controlStep?_eq_some_iff.2 hm.next]
  dsimp only
  rw [if_pos hm.isFree, hplace]
  show Except.ok _ = _
  rw [hmoved, hm.next.gap?_eq, afterMove]
  split_ifs <;> rfl

end Movable

/-- In a tidy column a control moves if the next row is free, and otherwise it is blocked. -/
theorem Tidy.moveControl_cases (h : c.Tidy) (hgate : gate < n) (d : Direction) :
    (∃ old row, c.Movable gate d old row ∧
      c.moveControl gate d = .ok (c.afterMove gate old row, row)) ∨
    (∀ old row, ¬ c.Movable gate d old row) ∧ c.moveControl gate d = .error (.blocked gate) := by
  by_cases hmovable : ∃ old row, c.Movable gate d old row
  · obtain ⟨old, row, hm⟩ := hmovable
    exact .inl ⟨old, row, hm, hm.moveControl_eq_ok h⟩
  · simp only [not_exists] at hmovable
    refine .inr ⟨hmovable, ?_⟩
    rw [moveControl, checkRow, if_pos hgate]
    dsimp only [bind, Except.bind]
    split
    case h_1 old hcontrol hsecond =>
      split
      case h_1 row hstep =>
        have hfree : ¬ c.isFree row = true := fun hfree =>
          hmovable old row ⟨hcontrol, hsecond, controlStep?_eq_some_iff.1 hstep, hfree⟩
        rw [if_neg hfree]
      case h_2 => rfl
    case h_2 => rfl

/-! ### What a move changes -/

/-- The column `c'` is `c` after the control of the gate in a row has moved from row `old` to
`row`. -/
structure Moved (c : Column n) (gate old row : Nat) (c' : Column n) : Prop where
  node_gate : c'.node gate = { c.node gate with control := some row }
  reading_row : c'.reading row = .control
  /-- The control leaves a passing wire behind if it moves away from its gate. -/
  reading_old : c'.reading old = if isBetween gate row old then .trace else .empty

namespace Movable

theorem tidy_afterMove (hm : c.Movable gate d old row) (h : c.Tidy) :
    (c.afterMove gate old row).Tidy :=
  h.change (change_moveControl (hm.moveControl_eq_ok h))

theorem moved (hm : c.Movable gate d old row) (h : c.Tidy) :
    c.Moved gate old row (c.afterMove gate old row) := by
  have ha := hm.attachable h
  have hattached := ha.attached h
  have hempty : (c.withLink .control gate row).reading old = .empty :=
    hattached.reading_old old hm.control
  have htidy := hm.tidy_afterMove h
  rw [afterMove] at htidy ⊢
  split_ifs at htidy ⊢ with hbetween
  · have hgate : ((c.withLink .control gate row).fillGap old).node gate =
        Link.control.set (c.node gate) (some row) := by
      rw [(ha.tidy h).node_fillGap hempty ha.gate_lt, if_neg (h.ne_of_mem hm.mem_links).symm,
        hattached.node_gate]
    refine ⟨hgate, ?_, ?_⟩
    · exact htidy.reading_of_row? (l := .control) (by rw [hgate]; rfl)
    · rw [if_pos hbetween, reading_eq_trace_iff,
        (ha.tidy h).node_fillGap hempty (h.lt_of_mem hm.mem_links), if_pos rfl]
      rfl
  · exact ⟨hattached.node_gate, hattached.reading_row, by rw [hempty, if_neg hbetween]⟩

/-- The control can move back. -/
theorem back (hm : c.Movable gate d old row) (h : c.Tidy) :
    (c.afterMove gate old row).Movable gate d.opposite row old := by
  have hmoved := hm.moved h
  refine ⟨by rw [hmoved.node_gate], by rw [hmoved.node_gate, hm.second],
    hm.next.opposite (h.lt_of_mem hm.mem_links) (h.ne_of_mem hm.mem_links), ?_⟩
  rw [Column.isFree, hmoved.reading_old]
  split_ifs <;> rfl

end Movable

end Column

end QuantumCircuit

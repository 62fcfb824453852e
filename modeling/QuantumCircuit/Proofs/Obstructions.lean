import QuantumCircuit.Proofs.Column.Obstructed
import QuantumCircuit.Proofs.Frame
import QuantumCircuit.Proofs.StrayMarks

/-!
# Gates on linked rows

A placement of a caller's node looks at the owners of the rows that the node is linked to.  It
does not ask whether the row of the node is itself linked to, nor whether the row of its partner
holds something.  So a gate can come to stand on a control input or on the partner of a swap.

* `linked_rows_read` : that is the only way in which a linked row loses its reading.  An action
  obstructs a row only if it is such a placement (`Action.Collides`), and in a history without
  them (`Circuit.CollisionFree`) every control reads as a control and every partner as a swap.
* `gate_on_link` : both placements exist.
-/

namespace QuantumCircuit

namespace Circuit

variable {n d : Nat} {c : Circuit n d}

/-- A node is linked to the cell, and the cell shows something of its own. -/
def Obstructed (c : Circuit n d) (cell : Cell) : Prop := (c.column cell.col).Obstructed cell.row

end Circuit

/-- The action places a node of its caller's making that gets in the way of a link to the cell. -/
def Action.Collides {n d : Nat} (c : Circuit n d) (cell : Cell) : Action → Prop
  | edit col (.place row x) => col = cell.col ∧ (c.column col).Collides row x cell.row
  | _ => False

namespace Circuit

variable {n d : Nat} {c : Circuit n d}

/-- The circuits that some history leads to in which nobody stores a mark, and no node gets in the
way of a link. -/
def CollisionFree : Circuit n d → Prop :=
  ReachedBy fun c a => a.storesMark = false ∧ ∀ cell, ¬ a.Collides c cell

/-- An action obstructs a cell only if it places a node in the way of a link. -/
theorem obstructed_after {a : Action} {cell : Cell} (h : (c.after a).Obstructed cell) :
    c.Obstructed cell ∨ a.Collides c cell := by
  refine column_after_induction (P := fun column => column.Obstructed cell.row →
    c.Obstructed cell ∨ a.Collides c cell) .inl
    (fun hblank => absurd hblank Column.not_obstructed_blank)
    (fun hstep hrow => .inl (Column.obstructed_step hstep hrow)) (fun heq hplace hrow => ?_) h
  obtain ⟨hfits, rfl⟩ := Column.place_eq_ok hplace
  rcases Column.obstructed_overwrite hfits.ne_of_mem hrow with hold | hcollides
  · exact .inl hold
  · rw [heq]
    exact .inr ⟨rfl, hcollides⟩

theorem GateReachable.untraced (h : c.GateReachable) (k : Nat) : (c.column k).Untraced := by
  induction h with
  | blank => exact (column_blank k).symm ▸ Column.untraced_blank
  | after hc a ha ih =>
    refine column_after_induction ih Column.untraced_blank ((hc.marked k).untraced_step ih)
      fun heq hplace => ?_
    rw [(Column.place_eq_ok hplace).2]
    exact ih.overwrite_gate (Action.isStructural_of_place ha heq)

theorem CollisionFree.gateReachable (h : c.CollisionFree) : c.GateReachable := by
  induction h with
  | blank => exact .blank
  | after _ a ha ih => exact ih.after a ha.1

theorem CollisionFree.not_obstructed (h : c.CollisionFree) (cell : Cell) :
    ¬ c.Obstructed cell := by
  induction h with
  | blank =>
    rw [Obstructed, column_blank]
    exact Column.not_obstructed_blank
  | after _ a ha ih => exact fun h => (obstructed_after h).elim ih (ha.2 cell)

/-- What a linked row shows, as long as nobody stores a mark.  A control reads as a control, or it
holds a gate; a partner reads as a swap, or it holds a gate or a passing wire.  Such a row comes
about only by an action that places a node in the way of a link, and without these actions every
control reads as a control and every partner as a swap. -/
theorem linked_rows_read (h : c.GateReachable) :
    (∀ gate row col, row ∈ (c.node ⟨gate, col⟩).controls →
      c.reading ⟨row, col⟩ = .control ∨ (c.node ⟨row, col⟩).kind.isNull = false) ∧
    (∀ gate row col, (c.node ⟨gate, col⟩).partner = some row →
      c.reading ⟨row, col⟩ = .swap ∨ c.reading ⟨row, col⟩ = .trace ∨
        (c.node ⟨row, col⟩).kind.isNull = false) ∧
    (∀ (a : Action) (cell : Cell), (c.after a).Obstructed cell →
      c.Obstructed cell ∨ a.Collides c cell) ∧
    (c.CollisionFree →
      (∀ gate row col, row ∈ (c.node ⟨gate, col⟩).controls → c.reading ⟨row, col⟩ = .control) ∧
      ∀ gate row col, (c.node ⟨gate, col⟩).partner = some row → c.reading ⟨row, col⟩ = .swap) := by
  refine ⟨fun gate row col hmem => ?_, fun gate row col hpartner => ?_,
    fun _ _ => obstructed_after, fun hfree => ⟨fun gate row col hmem => ?_,
      fun gate row col hpartner => ?_⟩⟩
  · rw [Node.isNull_kind]
    exact (h.untraced col).reading_or_gate (h.marked col).toLinked hmem
  · rw [Node.isNull_kind]
    exact (h.marked col).reading_or_covered hpartner
  · have hlink := Node.mem_links_of_mem_controls hmem
    exact (h.marked col).toLinked.reading_eq_control hmem fun hcovers =>
      hfree.not_obstructed ⟨row, col⟩ ⟨⟨gate, hlink⟩, hcovers⟩
  · have hlink := Node.mem_links.2 (.inr hpartner)
    exact (h.marked col).reading_eq_swap hpartner fun hcovers =>
      hfree.not_obstructed ⟨row, col⟩ ⟨⟨gate, hlink⟩, hcovers⟩

/-- The first placement of a node without a partner in a blank circuit is in the way of nothing. -/
theorem collisionFree_place {col row : Nat} {x : Node} (hpartner : x.partner = none)
    (hx : (Action.edit col (.place row x)).storesMark = false) :
    CollisionFree ((blank : Circuit n d).after (.edit col (.place row x))) := by
  refine .after .blank _ ⟨hx, fun cell => ?_⟩
  rintro ⟨-, ⟨-, -, gate, -, -, hl⟩ | ⟨hsome, -⟩⟩
  · rw [column_blank, Column.node_blank, Node.links_blank] at hl
    cases hl
  · rw [hpartner] at hsome
    cases hsome

/-- An X in row 0 with its control in row 1. -/
def controlledX : Circuit 2 1 :=
  blank.after (.edit 0 (.place 0 { Node.ofSymbol .x with control := some 1 }))

/-- A Hadamard gate for row 1. -/
def hadamardBelow : Action := .edit 0 (.place 1 (.ofSymbol .hadamard))

/-- A swap in row 0 whose partner is row 1. -/
def swapAbove : Action := .edit 0 (.place 0 { Node.ofSymbol .swap with partner := some 1 })

theorem collisionFree_controlledX : controlledX.CollisionFree :=
  collisionFree_place rfl (by decide +kernel)

theorem linked_rows_read_controlledX :
    controlledX.CollisionFree ∧ 1 ∈ (controlledX.node ⟨0, 0⟩).controls ∧
      controlledX.reading ⟨1, 0⟩ = .control ∧
      (controlledX.after hadamardBelow).Obstructed ⟨1, 0⟩ ∧
      (controlledX.Obstructed ⟨1, 0⟩ ∨ hadamardBelow.Collides controlledX ⟨1, 0⟩) := by
  have h := linked_rows_read collisionFree_controlledX.gateReachable
  have hcontrol : 1 ∈ (controlledX.node ⟨0, 0⟩).controls := by decide +kernel
  have hreading := (h.2.2.2 collisionFree_controlledX).1 0 1 0 hcontrol
  have hobstructed : (controlledX.after hadamardBelow).Obstructed ⟨1, 0⟩ :=
    ⟨⟨0, by decide +kernel⟩, by decide +kernel, by decide +kernel⟩
  exact ⟨collisionFree_controlledX, hcontrol, hreading, hobstructed,
    h.2.2.1 hadamardBelow ⟨1, 0⟩ hobstructed⟩

/-- The Hadamard gate on top of the control. -/
def overlaid : Circuit 2 1 := controlledX.after hadamardBelow

/-- The Hadamard gate, and then the swap. -/
def swapped : Circuit 2 1 := (blank.after hadamardBelow).after swapAbove

/-- A gate on top of a control, and a swap whose partner is the row of a gate. -/
theorem gate_on_link :
    (overlaid.GateReachable ∧ 1 ∈ (overlaid.node ⟨0, 0⟩).controls ∧
      overlaid.reading ⟨1, 0⟩ = .plain .hadamard) ∧
    swapped.GateReachable ∧ (swapped.node ⟨0, 0⟩).partner = some 1 ∧
      swapped.reading ⟨1, 0⟩ = .plain .hadamard := by
  have hbelow : hadamardBelow.storesMark = false := by decide +kernel
  have habove : swapAbove.storesMark = false := by decide +kernel
  refine ⟨⟨collisionFree_controlledX.gateReachable.after _ hbelow, ?_, ?_⟩,
    (GateReachable.blank.after _ hbelow).after _ habove, ?_, ?_⟩
  all_goals decide +kernel

end Circuit

end QuantumCircuit

import QuantumCircuit.Proofs.History

/-!
# Lasting properties of nodes

What bare symbols and new gates have, and what a gate keeps when it is turned or its links change
(`Node.Lasting`), all nodes of a circuit have for good: an edit takes it from no node
(`Column.lasting_step`), so every node of an edited circuit has it
(`Circuit.EditReachable.lasting`).
-/

namespace QuantumCircuit

/-- The property is there from the start, and no edit takes it away. -/
structure Node.Lasting (P : Node → Prop) : Prop where
  ofSymbol : ∀ s, P (ofSymbol s)
  newNode : ∀ {g x}, Column.newNode g = .ok x → P x
  altered : ∀ {x y fresh}, x.Altered y fresh → P x → P y
  atRow : ∀ {x}, P x → ∀ row, P (x.atRow row)

variable {P : Node → Prop}

namespace Column

variable {n : Nat} {c c' : Column n} {row r : Nat} {x : Node}

theorem lasting_blank (hP : Node.Lasting P) (r : Nat) : P ((blank : Column n).node r) := by
  rw [node_blank]
  exact hP.atRow (hP.ofSymbol .empty) r

theorem lasting_overwrite (hP : Node.Lasting P) (hx : r = row → P x) (h : P (c.node r)) :
    P ((c.overwrite row x).node r) := by
  refine forall_node_overwrite (P := fun s y => s = r → P y) (fun s _ => ?_) (fun hs => ?_)
    (fun s _ => ?_) (fun s hs => ?_) r rfl
  · exact hP.atRow (hP.ofSymbol .control) s
  · exact hP.atRow (hx hs.symm) row
  · exact hP.atRow (hP.ofSymbol .empty) s
  · rwa [hs]

theorem lasting_clear (hP : Node.Lasting P) (h : P (c.node r)) (row : Nat) :
    P ((c.clear row).node r) :=
  lasting_overwrite hP (fun _ => hP.atRow (hP.ofSymbol .empty) row) h

theorem lasting_fillGap (hP : Node.Lasting P) (h : P (c.node r)) (row : Nat) :
    P ((c.fillGap row).node r) := by
  unfold fillGap
  split
  · exact lasting_overwrite hP (fun _ => hP.atRow (hP.ofSymbol .trace) row) h
  · exact h

theorem lasting_foldl_clear (hP : Node.Lasting P) (h : P (c.node r)) (rows : List Nat) :
    P ((rows.foldl clear c).node r) := by
  induction rows generalizing c with
  | nil => exact h
  | cons q rest ih => exact ih (lasting_clear hP h q)

theorem lasting_change (hP : Node.Lasting P) (h : P (c.node r)) (hchange : c.Change row c') :
    P (c'.node r) := by
  have haltered : ∀ {x : Node} {fresh : List Nat}, (c.node row).Altered x fresh →
      P ((c.overwrite row x).node r) := fun hx =>
    lasting_overwrite hP (fun hr => hP.altered hx (hr ▸ h)) h
  cases hchange with
  | keep => exact h
  | put _ hnew _ => exact lasting_overwrite hP (fun _ => hP.newNode hnew) h
  | revise hx _ => exact haltered hx
  | link hx _ _ => exact lasting_clear hP (haltered hx) _
  | stretch hx _ _ _ => exact lasting_fillGap hP (lasting_clear hP (haltered hx) _) _

theorem lasting_step (hP : Node.Lasting P) (h : P (c.node r)) (hstep : c.Step c') :
    P (c'.node r) := by
  cases hstep with
  | change hchange => exact lasting_change hP h hchange
  | delete gate => exact lasting_foldl_clear hP h _

end Column

namespace Circuit

variable {n d : Nat} {c : Circuit n d}

theorem lasting_blank (hP : Node.Lasting P) (cell : Cell) :
    P ((blank : Circuit n d).node cell) := by
  rw [node, column_blank]
  exact Column.lasting_blank hP cell.row

/-- A node keeps the property, unless it is replaced by a node of the caller's making. -/
theorem lasting_after (hP : Node.Lasting P) {cell : Cell} (h : P (c.node cell)) {a : Action}
    (ha : ∀ x, a = .edit cell.col (.place cell.row x) → P x) : P ((c.after a).node cell) := by
  refine column_after_induction (P := fun column => P (column.node cell.row)) h
    (Column.lasting_blank hP cell.row) (Column.lasting_step hP h)
    fun {row x column} heq hplace => ?_
  rw [(Column.place_eq_ok hplace).2]
  refine Column.lasting_overwrite hP (fun hrow => ha x ?_) h
  rw [heq, hrow]

theorem EditReachable.lasting (hP : Node.Lasting P) (h : c.EditReachable) (cell : Cell) :
    P (c.node cell) := by
  induction h with
  | blank => exact lasting_blank hP cell
  | after _ a ha ih =>
    refine lasting_after hP ih fun x heq => ?_
    rw [heq] at ha
    cases ha

end Circuit

end QuantumCircuit

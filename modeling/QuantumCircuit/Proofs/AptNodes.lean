import QuantumCircuit.Proofs.Arity
import QuantumCircuit.Proofs.Lasting
import QuantumCircuit.Proofs.SoundNodes

/-!
# Angles and partners of any nodes

A node that is put into a circuit by its maker may have a partner though it is no swap, and an
angle of its own though it does not turn about an axis.  A placement refuses controls that do not
act, but it does not look at the partner or at the angle, and the program names both.

* `surplus_only_placed` : the instruction of a node has an operand too many, or angles that its
  name does not take, exactly if the node is not `Node.Apt`, and such a node comes into a circuit
  only by a placement of one.  If all nodes that are placed are apt (`Circuit.AptlyReached`), then
  all nodes of the circuit are.
* `surplus_placed` : such placements succeed.
-/

namespace QuantumCircuit

open Instruction

/-- Only swaps have a partner, and only gates about an axis are turned. -/
structure Node.Apt (x : Node) : Prop where
  symbol_of_partner : x.partner.isSome = true → x.symbol = .swap
  isRotatable : x.isRotated = true → x.symbol.isRotatable = true

namespace Node

variable {x y : Node}

theorem Proper.apt (h : x.Proper) : x.Apt where
  symbol_of_partner := h.symbol_of_partner
  isRotatable := h.isRotatable

theorem apt_ofSymbol (s : Symbol) : (ofSymbol s).Apt := (proper_ofSymbol s).apt

theorem Apt.atRow (h : x.Apt) (row : Nat) : (x.atRow row).Apt where
  symbol_of_partner := h.symbol_of_partner
  isRotatable := h.isRotatable

theorem Altered.apt {fresh : List Nat} (h : x.Altered y fresh) (hx : x.Apt) : y.Apt where
  symbol_of_partner hp := by
    rw [h.symbol_eq]
    exact (h.symbol_of_partner hp).elim hx.symbol_of_partner id
  isRotatable hr := by
    rw [h.symbol_eq]
    by_contra hs
    rw [Bool.not_eq_true] at hs
    -- A node that does not turn keeps its angle.
    rw [isRotated, h.theta_eq hs] at hr
    rw [hx.isRotatable hr] at hs
    cases hs

theorem instruction?_eq_gate {name : String} {angles : List Binary64} {operands : List Nat}
    (h : x.instruction? = some (.gate name angles operands)) :
    x.kind.instructionName? = some name ∧ angles = x.angles ∧ operands = x.links ++ [x.row] := by
  unfold instruction? at h
  split at h
  · cases h
  · obtain ⟨name', hname, heq⟩ := Option.map_eq_some_iff.1 h
    cases heq
    exact ⟨hname, rfl, rfl⟩

/-- The instruction fits its name: it has no operand too many, and angles exactly if the name
takes some. -/
theorem apt_iff (hact : x.controlsAct = true) {name : String}
    (hname : x.kind.instructionName? = some name) :
    (x.links ++ [x.row]).length ≤ arity name ∧ (x.angles ≠ [] ↔ name ∈ turnedNames) ↔ x.Apt := by
  obtain ⟨hturned, hcount⟩ := name_of_controlsAct hact hname
  constructor
  · rintro ⟨hlength, hangles⟩
    refine ⟨fun hp => ?_, fun hr => (hturned.1 (hangles.1 (angles_ne_nil_iff.2 hr))).2⟩
    obtain ⟨p, hp⟩ := Option.isSome_iff_exists.1 hp
    -- With a partner there is one operand more than the row and the controls.
    have hlength' : (x.links ++ [x.row]).length = 2 + controlCount name := by
      rw [hcount]
      simp [links, hp]
      omega
    rw [hlength', arity_eq] at hlength
    refine (mem_swapNames_iff hname).1 (by_contra fun hswap => ?_)
    rw [if_neg hswap] at hlength
    omega
  · intro h
    have hlength := length_operands hact h.symbol_of_partner hname
    exact ⟨by omega, angles_ne_nil_iff_mem hact h.isRotatable hname⟩

end Node

theorem Node.lasting_apt : Lasting Apt where
  ofSymbol := apt_ofSymbol
  newNode hnew := (Column.newNode_eq_ok hnew).2.2.apt
  altered := Altered.apt
  atRow := Apt.atRow

namespace Circuit

variable {n d : Nat} {c : Circuit n d}

/-- A node stays apt, unless it is replaced by one that is not. -/
theorem apt_after {cell : Cell} (h : (c.node cell).Apt) {a : Action}
    (ha : ∀ x, a = .edit cell.col (.place cell.row x) → x.Apt) : ((c.after a).node cell).Apt :=
  lasting_after Node.lasting_apt h ha

/-- The circuits that some history leads to in which all nodes that are placed are apt. -/
def AptlyReached : Circuit n d → Prop :=
  ReachedBy fun _ a => ∀ col row x, a = .edit col (.place row x) → x.Apt

theorem AptlyReached.apt (h : c.AptlyReached) (cell : Cell) : (c.node cell).Apt := by
  induction h with
  | blank => exact lasting_blank Node.lasting_apt cell
  | after _ a ha ih => exact apt_after ih fun x => ha cell.col cell.row x

/-- What the nodes of a circuit have beyond what their gates take, whatever nodes have been stored
in it.  Controls act on every node.  An instruction has no operand too many, and angles exactly
if its name takes some, if and only if its node is apt.  An action makes the node of a cell one
that is not only by placing such a node there; and if all nodes that are placed are apt, then all
nodes of the circuit are. -/
theorem surplus_only_placed (h : c.Reachable) :
    (∀ cell, ((c.node cell).controls ≠ [] → (c.node cell).kind.isControlled = true) ∧
      ((c.node cell).secondControl.isSome = true → (c.node cell).kind = .toffoli)) ∧
    (∀ cell name angles operands,
      (c.node cell).instruction? = some (.gate name angles operands) →
      (operands.length ≤ arity name ∧ (angles ≠ [] ↔ name ∈ turnedNames) ↔ (c.node cell).Apt)) ∧
    (∀ (a : Action) (cell : Cell), ¬ ((c.after a).node cell).Apt →
      ¬ (c.node cell).Apt ∨ ∃ x, a = .edit cell.col (.place cell.row x) ∧ ¬ x.Apt) ∧
    (c.AptlyReached → ∀ cell, (c.node cell).Apt) := by
  refine ⟨fun cell => ?_, fun cell name angles operands hi => ?_, fun a cell hnot => ?_,
    AptlyReached.apt⟩
  · exact Node.controlsAct_iff.1 ((h.linked cell.col).controlsAct cell.row)
  · obtain ⟨hname, rfl, rfl⟩ := Node.instruction?_eq_gate hi
    exact Node.apt_iff ((h.linked cell.col).controlsAct cell.row) hname
  · by_contra hno
    rw [not_or, not_not, not_exists] at hno
    exact hnot (apt_after hno.1 fun x hx => by_contra fun hxapt => hno.2 x ⟨hx, hxapt⟩)

/-- A swap with its partner, and a rotated Z. -/
def fitting : Circuit 3 1 :=
  (blank.after (.edit 0 (.place 0 { Node.ofSymbol .swap with partner := some 1 }))).after
    (.edit 0 (.place 2 { Node.ofSymbol .z with theta := 0 }))

/-- An X with a partner. -/
def partneredX : Action := .edit 0 (.place 0 { Node.ofSymbol .x with partner := some 1 })

/-- A turned Hadamard gate. -/
def turnedHadamard : Action := .edit 0 (.place 2 { Node.ofSymbol .hadamard with theta := 0 })

theorem aptlyReached_fitting : fitting.AptlyReached := by
  refine .after (.after .blank _ ?_) _ ?_ <;> intro col row x heq <;> cases heq
  · exact ⟨fun _ => rfl, by decide +kernel⟩
  · exact ⟨by decide +kernel, fun _ => rfl⟩

theorem reachable_fitting : fitting.Reachable := (Reachable.blank.after _).after _

theorem surplus_only_placed_fitting :
    fitting.AptlyReached ∧ fitting.Reachable ∧
      (fitting.node ⟨2, 0⟩).instruction? = some (.gate "rz" [0] [2]) ∧
      [2].length ≤ arity "rz" ∧ (([0] : List Binary64) ≠ [] ↔ "rz" ∈ turnedNames) ∧
      ¬ ((fitting.after partneredX).node ⟨0, 0⟩).Apt ∧
      (¬ (fitting.node ⟨0, 0⟩).Apt ∨
        ∃ x, partneredX = .edit 0 (.place 0 x) ∧ ¬ x.Apt) := by
  have h := surplus_only_placed reachable_fitting
  have hrz : (fitting.node ⟨2, 0⟩).instruction? = some (.gate "rz" [0] [2]) := by decide +kernel
  have hfits := (h.2.1 ⟨2, 0⟩ "rz" [0] [2] hrz).2 (h.2.2.2 aptlyReached_fitting ⟨2, 0⟩)
  have hnot : ¬ ((fitting.after partneredX).node ⟨0, 0⟩).Apt := by
    intro hapt
    have hsymbol := hapt.symbol_of_partner (by decide +kernel)
    revert hsymbol
    decide +kernel
  exact ⟨aptlyReached_fitting, reachable_fitting, hrz, hfits.1, hfits.2, hnot,
    h.2.2.1 partneredX ⟨0, 0⟩ hnot⟩

/-- A circuit with both of them. -/
def burdened : Circuit 3 1 := (blank.after partneredX).after turnedHadamard

/-- An X whose partner the program names, and a Hadamard gate with an angle. -/
theorem surplus_placed :
    burdened.Reachable ∧
      (burdened.node ⟨0, 0⟩).instruction? = some (.gate "x" [] [1, 0]) ∧
      (burdened.node ⟨2, 0⟩).instruction? = some (.gate "h" [0] [2]) ∧
      "x q[1],q[0];" ∈ burdened.programLines ∧ "h(0) q[2];" ∈ burdened.programLines :=
  ⟨(Reachable.blank.after _).after _, by decide +kernel, by decide +kernel, by decide +kernel,
    by decide +kernel⟩

end Circuit

end QuantumCircuit

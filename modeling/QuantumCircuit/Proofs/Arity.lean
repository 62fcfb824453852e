import QuantumCircuit.Proofs.ProgramLines

/-!
# The operands of an instruction

Every gate acts on a number of rows that its name fixes (`Instruction.arity`): its own row, one
row for each control, and for a swap the row of its partner.

* `operands_but_partner` : in the program of an edited circuit every instruction has all its
  operands, except that the partner is missing from the line of a swap that has none.
* `swap_alone` : such a swap exists.  Putting it down and linking it are two commands, and the
  program can be asked for in between.
-/

namespace QuantumCircuit

namespace Instruction

/-- The names of the gates that exchange two rows. -/
def swapNames : List String := ["swap", "cswap"]

/-- How many rows a gate acts on, by its name. -/
def arity (name : String) : Nat :=
  if name ∈ ["cx", "cy", "cz", "ch", "crz", "swap"] then 2
  else if name ∈ ["ccx", "cswap"] then 3
  else 1

/-- A gate acts on its own row, on the rows of its controls, and a swap on one more. -/
theorem arity_eq (name : String) :
    arity name = 1 + controlCount name + if name ∈ swapNames then 1 else 0 := by
  by_cases h : name ∈ ["cx", "cy", "cz", "ch", "crz", "swap", "ccx", "cswap"]
  · revert name
    decide
  · simp_all [arity, controlCount, swapNames]

theorem not_mem_turnedNames {name : String} (h : name ∈ swapNames) : name ∉ turnedNames := by
  revert name
  decide

end Instruction

open Instruction

namespace Node

variable {x : Node}

theorem mem_swapNames_iff {name : String} (hname : x.kind.instructionName? = some name) :
    name ∈ swapNames ↔ x.symbol = .swap := by
  rw [← x.symbol_kind]
  cases hk : x.kind with
  | plain s =>
    rw [hk] at hname
    cases s <;> cases hname <;> decide
  | rotated axis =>
    rw [hk] at hname
    cases axis <;> cases hname <;> decide
  | controlled target =>
    rw [hk] at hname
    cases target <;> cases hname <;> decide
  | toffoli =>
    rw [hk] at hname
    cases hname
    decide

/-- The instruction of a node with a gate: a measurement, or a gate with all links as operands. -/
theorem instruction?_cases (hgate : x.kind.isNull = false) :
    x.instruction? = some (.measure x.row) ∨
      ∃ name, x.kind.instructionName? = some name ∧
        x.instruction? = some (.gate name x.angles (x.links ++ [x.row])) := by
  obtain ⟨i, hi⟩ := Option.isSome_iff_exists.1 (isSome_instruction?_iff.2 hgate)
  rw [hi]
  unfold instruction? at hi
  split at hi
  · exact .inl hi.symm
  · obtain ⟨name, hname, rfl⟩ := Option.map_eq_some_iff.1 hi
    exact .inr ⟨name, hname, rfl⟩

/-- If only swaps have partners, then only a swap without a partner lacks an operand. -/
theorem length_operands (hact : x.controlsAct = true)
    (hpartner : x.partner.isSome = true → x.symbol = .swap) {name : String}
    (hname : x.kind.instructionName? = some name) :
    (x.links ++ [x.row]).length + (if name ∈ swapNames ∧ x.partner = none then 1 else 0) =
      arity name := by
  rw [arity_eq, (name_of_controlsAct hact hname).2]
  cases hp : x.partner with
  | none =>
    simp [links, hp]
    omega
  | some p =>
    have hswap : name ∈ swapNames := (mem_swapNames_iff hname).2 (hpartner (by rw [hp]; rfl))
    simp [links, hp, hswap]
    omega

/-- If only gates about an axis are turned, then the names of turned gates are those of the nodes
with angles. -/
theorem angles_ne_nil_iff_mem (hact : x.controlsAct = true)
    (hturned : x.isRotated = true → x.symbol.isRotatable = true) {name : String}
    (hname : x.kind.instructionName? = some name) : x.angles ≠ [] ↔ name ∈ turnedNames := by
  rw [angles_ne_nil_iff, (name_of_controlsAct hact hname).1]
  exact ⟨fun hr => ⟨hr, hturned hr⟩, And.left⟩

end Node

namespace Circuit

variable {n d : Nat} {c : Circuit n d}

/-- The operands in the program of an edited circuit.  Its lines are those of the preamble and one
for each gate.  The line of a gate names as many operands as the gate acts on, and one less if it
is a swap that has no partner; the operands of a swap are its control if it has one, its partner
if it has one, and its own row. -/
theorem operands_but_partner (h : c.EditReachable) :
    c.programLines = preamble n ++ c.gateCells.map c.line ∧
    ∀ cell ∈ c.gateCells, (c.node cell).instruction? = some (.measure cell.row) ∨
      ∃ name angles operands, (c.node cell).instruction? = some (.gate name angles operands) ∧
        operands.length + (if name ∈ swapNames ∧ (c.node cell).partner = none then 1 else 0) =
          arity name ∧
        (name ∈ swapNames →
          operands = (c.node cell).controls ++ (c.node cell).partner.toList ++ [cell.row] ∧
          c.line cell = s!"{name} {operandsText operands};") := by
  refine ⟨by rw [programLines_eq, filterMap_lineAt], fun cell hcell => ?_⟩
  have htidy := h.tidy cell.col
  have hact : (c.node cell).controlsAct = true := htidy.controlsAct cell.row
  have hproper : (c.node cell).Proper := htidy.proper cell.row
  have hrow : (c.node cell).row = cell.row := htidy.row_node cell.row
  rcases Node.instruction?_cases (mem_gateCells.1 hcell).2.2 with hmeasure | ⟨name, hname, hgate⟩
  · left
    rw [hmeasure, hrow]
  · right
    refine ⟨name, _, _, hgate, Node.length_operands hact hproper.symbol_of_partner hname,
      fun hswap => ⟨?_, ?_⟩⟩
    · rw [Node.links, hrow]
    · have hangles : (c.node cell).angles = [] := by
        by_contra hne
        exact not_mem_turnedNames hswap
          ((Node.angles_ne_nil_iff_mem hact hproper.isRotatable hname).1 hne)
      rw [line, hgate, hangles]
      show name ++ "" ++ " " ++ operandsText _ ++ ";" = name ++ " " ++ operandsText _ ++ ";"
      rw [String.append_empty]

/-- A swap with its partner, and a controlled swap with its own. -/
def exchanged : Circuit 3 2 :=
  ((((blank.after (.command (.place ⟨1, 0⟩ .swap []))).after
    (.command (.toggleSwap ⟨1, 0⟩))).after
    (.command (.place ⟨1, 1⟩ .swap []))).after
    (.command (.toggleSwap ⟨1, 1⟩))).after
    (.command (.toggleControl ⟨1, 1⟩))

theorem editReachable_exchanged : exchanged.EditReachable :=
  ((((EditReachable.blank.after _ rfl).after _ rfl).after _ rfl).after _ rfl).after _ rfl

theorem operands_but_partner_exchanged :
    exchanged.EditReachable ∧ exchanged.gateCells = [⟨1, 0⟩, ⟨1, 1⟩] ∧
      (exchanged.node ⟨1, 1⟩).instruction? = some (.gate "cswap" [] [2, 0, 1]) ∧
      (exchanged.node ⟨1, 1⟩).partner = some 0 ∧ [2, 0, 1].length = arity "cswap" ∧
      exchanged.line ⟨1, 1⟩ = "cswap q[2],q[0],q[1];" ∧
      exchanged.programLines = ["OPENQASM 2.0;", "include \"qelib1.inc\";", "qreg q[3];",
        "creg c[3];", "id q;", "swap q[0],q[1];", "cswap q[2],q[0],q[1];"] := by
  have h := operands_but_partner editReachable_exchanged
  have hcells : exchanged.gateCells = [⟨1, 0⟩, ⟨1, 1⟩] := by decide +kernel
  have hcswap : (exchanged.node ⟨1, 1⟩).instruction? = some (.gate "cswap" [] [2, 0, 1]) := by
    decide +kernel
  have hpartner : (exchanged.node ⟨1, 1⟩).partner = some 0 := by decide +kernel
  have hswap : exchanged.line ⟨1, 0⟩ = "swap q[0],q[1];" := by decide +kernel
  rcases h.2 ⟨1, 1⟩ (by simp [hcells]) with hmeasure | ⟨_, _, _, hgate, hlength, hoperands⟩
  · rw [hcswap] at hmeasure
    cases hmeasure
  rw [hcswap] at hgate
  cases hgate
  have hline : exchanged.line ⟨1, 1⟩ = "cswap q[2],q[0],q[1];" := (hoperands (by decide)).2
  refine ⟨editReachable_exchanged, hcells, hcswap, hpartner, ?_, hline, ?_⟩
  · simpa [hpartner] using hlength
  · rw [h.1, hcells, List.map_cons, List.map_singleton, hswap, hline]
    rfl

/-- A swap that has been put down and not been linked. -/
def alone : Circuit 2 1 := blank.after (.command (.place ⟨1, 0⟩ .swap []))

/-- The same swap with a control. -/
def aloneControlled : Circuit 2 1 := alone.after (.command (.toggleControl ⟨1, 0⟩))

/-- The line of a swap with one operand, and that of a controlled swap with two. -/
theorem swap_alone :
    (alone.EditReachable ∧
      (alone.node ⟨1, 0⟩).instruction? = some (.gate "swap" [] [1]) ∧
      "swap q[1];" ∈ alone.programLines) ∧
    aloneControlled.EditReachable ∧
      (aloneControlled.node ⟨1, 0⟩).instruction? = some (.gate "cswap" [] [0, 1]) ∧
      "cswap q[0],q[1];" ∈ aloneControlled.programLines :=
  have halone : alone.EditReachable := EditReachable.blank.after _ rfl
  ⟨⟨halone, by decide +kernel, by decide +kernel⟩, halone.after _ rfl, by decide +kernel,
    by decide +kernel⟩

end Circuit

end QuantumCircuit

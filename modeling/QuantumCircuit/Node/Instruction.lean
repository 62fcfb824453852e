import QuantumCircuit.Node

/-!
# Instructions

One line of a program: a gate with its angles and operands, or a measurement.  The operands of a
gate are the rows it is linked to, controls in front, and then its own row.
-/

namespace QuantumCircuit

/-- One instruction of a program. -/
inductive Instruction
  | gate (name : String) (angles : List Binary64) (operands : List Nat)
  | measure (row : Nat)
  deriving DecidableEq

namespace Instruction

/-- The text of an operand. -/
def operandText (row : Nat) : String := s!"q[{row}]"

/-- The angles in parentheses; nothing for no angles. -/
def anglesText (angles : List Binary64) : String :=
  if angles.isEmpty then "" else "(" ++ ",".intercalate (angles.map toString) ++ ")"

/-- The operands, separated by commas. -/
def operandsText (operands : List Nat) : String := ",".intercalate (operands.map operandText)

/-- The line of an instruction, without the end of the line. -/
def toText : Instruction → String
  | gate name angles operands =>
    s!"{name}{anglesText angles} {operandsText operands};"
  | measure row => s!"measure q[{row}] -> c[{row}];"

instance : ToString Instruction := ⟨toText⟩

end Instruction

/-- The instruction of a node; none if it holds no gate. -/
def Node.instruction? (x : Node) : Option Instruction :=
  if x.kind == .plain .measure then some (.measure x.row)
  else x.kind.instructionName?.map fun name => .gate name x.angles (x.links ++ [x.row])

end QuantumCircuit

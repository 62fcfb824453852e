/-!
# Gate kinds

A cell is marked with a `Symbol`.  Rotation and controls turn the symbol into one of the derived
kinds of `Kind`; `Kind.of` is the rule, and `Kind.symbol` takes every layer off again.
-/

namespace QuantumCircuit

/-- The mark in a cell: a gate, nothing, or one of the two marks that links leave behind. -/
inductive Symbol
  | empty
  | identity
  | x
  | y
  | z
  | hadamard
  | phase
  | phaseDagger
  | t
  | tDagger
  | swap
  | measure
  /-- The control input of a gate elsewhere in the column. -/
  | control
  /-- A wire that the link between two other rows passes. -/
  | trace
  deriving DecidableEq, Repr

/-- The axis of a rotation. -/
inductive Axis
  | x
  | y
  | z
  deriving DecidableEq, Repr

/-- The gates that can be controlled once. -/
inductive Target
  | x
  | y
  | z
  | hadamard
  | swap
  | rotatedZ
  deriving DecidableEq, Repr

/-- What a cell is, rotation and controls included. -/
inductive Kind
  | plain (symbol : Symbol)
  | rotated (axis : Axis)
  | controlled (target : Target)
  /-- The doubly controlled X. -/
  | toffoli
  deriving DecidableEq, Repr

/-- The symbol of the gate that rotates by π about the axis. -/
def Axis.symbol : Axis → Symbol
  | .x => .x
  | .y => .y
  | .z => .z

namespace Symbol

/-- The axis about which a gate rotates, if it is a rotation. -/
def axis? : Symbol → Option Axis
  | .x => some .x
  | .y => some .y
  | .z => some .z
  | _ => none

/-- The symbol takes an angle. -/
def isRotatable (s : Symbol) : Bool := s.axis?.isSome

/-- The symbol stands for no gate. -/
def isNull : Symbol → Bool
  | .empty | .control | .trace => true
  | _ => false

/-- The symbol is a mark that only links leave. -/
def isStructural : Symbol → Bool
  | .control | .trace => true
  | _ => false

end Symbol

namespace Target

/-- The gate without its control. -/
def uncontrolled : Target → Kind
  | .x => .plain .x
  | .y => .plain .y
  | .z => .plain .z
  | .hadamard => .plain .hadamard
  | .swap => .plain .swap
  | .rotatedZ => .rotated .z

/-- The symbol of the gate under the control. -/
def symbol : Target → Symbol
  | .x => .x
  | .y => .y
  | .z => .z
  | .hadamard => .hadamard
  | .swap => .swap
  | .rotatedZ => .z

end Target

namespace Kind

/-- The symbol under every rotation and control. -/
def symbol : Kind → Symbol
  | plain s => s
  | rotated a => a.symbol
  | controlled t => t.symbol
  | toffoli => .x

/-- The kind of a cell that holds nothing. -/
abbrev empty : Kind := plain .empty

/-- The kind of a row that a gate has as its control. -/
abbrev control : Kind := plain .control

/-- The kind of a row that a link only passes. -/
abbrev trace : Kind := plain .trace

/-- The kind of either end of a swap. -/
abbrev swap : Kind := plain .swap

/-- The kind is no gate: an empty row, a control mark or a passing wire. -/
def isNull : Kind → Bool
  | plain s => s.isNull
  | _ => false

/-- The kind of a mark that only links leave. -/
def isStructural : Kind → Bool
  | plain s => s.isStructural
  | _ => false

/-- The gate under the kind takes an angle. -/
def isRotatable (k : Kind) : Bool := k.symbol.isRotatable

/-- The kind has at least one control. -/
def isControlled : Kind → Bool
  | controlled _ | toffoli => true
  | _ => false

/-- The rotated form of a plain gate. -/
def rotated? : Kind → Option Kind
  | plain s => s.axis?.map rotated
  | _ => none

/-- The gate as a target of one control. -/
def target? : Kind → Option Target
  | plain .x => some .x
  | plain .y => some .y
  | plain .z => some .z
  | plain .hadamard => some .hadamard
  | plain .swap => some .swap
  | rotated .z => some .rotatedZ
  | _ => none

/-- The form of the kind with one control. -/
def controlled? (k : Kind) : Option Kind := k.target?.map controlled

/-- The kind without the outermost rotation or control. -/
def inner? : Kind → Option Kind
  | rotated a => some (plain a.symbol)
  | controlled t => some t.uncontrolled
  | _ => none

/-- The kind of a symbol that is rotated or not and has a first and a second control or not.
A rotation or control that the gate does not have is ignored, a second control also when there
is no first. -/
def of (s : Symbol) (isRotated hasControl hasSecond : Bool) : Kind :=
  let k := if isRotated then ((plain s).rotated?).getD (plain s) else plain s
  if !hasControl then k
  else if hasSecond && k == plain .x then toffoli
  else k.controlled?.getD k

/-- Rotation and controls never change the symbol. -/
theorem symbol_of (s : Symbol) (r c d : Bool) : (of s r c d).symbol = s := by
  cases s <;> cases r <;> cases c <;> cases d <;> rfl

/-! ### Texts -/

/-- The name of a kind in a program; a kind without a gate has none. -/
def instructionName? : Kind → Option String
  | plain .empty | plain .control | plain .trace => none
  | plain .identity => some "id"
  | plain .x => some "x"
  | plain .y => some "y"
  | plain .z => some "z"
  | plain .hadamard => some "h"
  | plain .phase => some "s"
  | plain .phaseDagger => some "sdg"
  | plain .t => some "t"
  | plain .tDagger => some "tdg"
  | plain .swap => some "swap"
  | plain .measure => some "measure"
  | rotated .x => some "rx"
  | rotated .y => some "ry"
  | rotated .z => some "rz"
  | controlled .x => some "cx"
  | controlled .y => some "cy"
  | controlled .z => some "cz"
  | controlled .hadamard => some "ch"
  | controlled .swap => some "cswap"
  | controlled .rotatedZ => some "crz"
  | toffoli => some "ccx"

/-- The name of a kind in messages. -/
def name : Kind → String
  | plain .empty => "empty"
  | plain .control => "control"
  | plain .trace => "trace"
  | k => k.instructionName?.getD "?"

instance : ToString Kind := ⟨name⟩

/-- The sign that is drawn in a cell of this kind. -/
def label : Kind → String
  | plain .empty => ""
  | plain .identity => "I"
  | plain .x => "X"
  | plain .y | controlled .y => "Y"
  | plain .z => "Z"
  | plain .hadamard | controlled .hadamard => "H"
  | plain .phase => "S"
  | plain .phaseDagger => "S†"
  | plain .t => "T"
  | plain .tDagger => "T†"
  | plain .swap | controlled .swap => "×"
  | plain .measure => "M"
  | plain .control | controlled .z => "●"
  | plain .trace => "┼"
  | rotated .x => "RX"
  | rotated .y => "RY"
  | rotated .z | controlled .rotatedZ => "RZ"
  | controlled .x | toffoli => "⊕"

end Kind

end QuantumCircuit

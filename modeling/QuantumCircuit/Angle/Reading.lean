import QuantumCircuit.Number.Literal
import QuantumCircuit.Text.Blank

/-!
# Reading angles

An angle is written as a number or as a multiple of π: `1.57`, `pi`, `-pi/2`, `3*pi/4`, `2pi`.
`PiTerm.read?` recognises the second form and `PiTerm.value?` gives its value; `Angle.read?`
puts both forms together.  A list of angles separates them by commas.
-/

namespace QuantumCircuit

/-- A written multiple of π, `± coefficient * pi / divisor`. -/
structure PiTerm where
  negative : Bool
  coefficient : Option Decimal
  divisor : Option Decimal
  deriving DecidableEq, Repr

namespace PiTerm

/-- The coefficient in front of π: nothing, or a numeral with a digit. -/
def coefficient? (n : Numeral) : Option (Option Decimal) :=
  if n.isEmpty then some none else n.value?.map some

/-- The divisor behind π, up to the end of the text: nothing, or a stroke and a numeral that
starts with a digit. -/
def divisor? (text : List Char) : Option (Option Decimal) :=
  match text with
  | [] => some none
  | _ =>
    match Text.dropBlanks text with
    | '/' :: rest =>
      match Numeral.read (Text.dropBlanks rest) with
      | (n, []) => if n.whole.isEmpty then none else n.value?.map some
      | _ => none
    | _ => none

/-- Leaves out a star between the coefficient and π, with the blanks around it. -/
def skipStar (text : List Char) : List Char :=
  match Text.dropBlanks text with
  | '*' :: rest => Text.dropBlanks rest
  | rest => rest

/-- Recognises a multiple of π in a text without capitals. -/
def read? (text : List Char) : Option PiTerm :=
  let (negative, rest) := match text with
    | '-' :: rest => (true, rest)
    | _ => (false, text)
  let (n, rest) := Numeral.read rest
  match skipStar rest with
  | 'p' :: 'i' :: rest => do
    let coefficient ← coefficient? n
    let divisor ← divisor? rest
    return ⟨negative, coefficient, divisor⟩
  | _ => none

/-- The value of a decimal factor. -/
def factor (d : Decimal) : Binary64 := .ofDecimal false d

/-- The coefficient, one if there is none, times π, divided by the divisor, with the sign put on
last.  A divisor that rounds to zero leaves no value. -/
def value? (t : PiTerm) : Option Binary64 :=
  let product := (t.coefficient.elim 1 factor) * .pi
  let quotient := match t.divisor with
    | none => some product
    | some d => if (factor d).isZero then none else some (product / factor d)
  quotient.map fun q => if t.negative then -q else q

end PiTerm

namespace Angle

/-- The value of a text that is an angle: a finite number, or else a multiple of π in capitals
or small letters.  The only capitals that fold to a letter of a multiple of π are ASCII. -/
def read? (text : String) : Option Binary64 :=
  let text := Text.trim text.toList
  match Literal.value? text with
  | some v => if v.isFinite then some v else none
  | none => (PiTerm.read? (text.map Char.toLower)).bind PiTerm.value?

/-- The parts of a list of angles: what stands between commas, trimmed, blank parts left out. -/
def parts (text : String) : List String :=
  ((text.toList.splitOn ',').map Text.trim |>.filter (!·.isEmpty)).map String.ofList

/-- All angles of a list; the first part that is no angle is the error. -/
def readList (text : String) : Except String (List Binary64) :=
  (parts text).mapM fun part => (read? part).elim (.error part) .ok

end Angle

end QuantumCircuit

import QuantumCircuit.Number.Binary64

/-!
# Number literals

The texts that denote a number by themselves: an optional sign, then `inf`, `infinity` or `nan`
in any case, or a numeral with an optional exponent.  `Literal.value?` takes the whole text.
-/

namespace QuantumCircuit

namespace Literal

/-- A sign in front of a text, if there is one, and the rest. -/
def splitSign : List Char → Bool × List Char
  | '-' :: rest => (true, rest)
  | '+' :: rest => (false, rest)
  | text => (false, text)

/-- The power of ten that ends a literal: nothing at all, or `e`, an optional sign and digits
up to the end. -/
def exponent? : List Char → Option Int
  | [] => some 0
  | e :: rest =>
    if e.toLower != 'e' then none
    else
      let (negative, digits) := splitSign rest
      if digits.isEmpty || !digits.all Char.isDigit then none
      else some (Binary64.signed negative (Nat.ofDigitChars 10 digits 0))

/-- A numeral with an optional exponent, up to the end of the text. -/
def decimal? (text : List Char) : Option Decimal := do
  let (numeral, rest) := Numeral.read text
  let d ← numeral.value?
  let e ← exponent? rest
  return { d with exponent := d.exponent + e }

/-- The names of numbers that digits cannot write. -/
def named? (negative : Bool) (text : List Char) : Option Binary64 :=
  match String.ofList (text.map Char.toLower) with
  | "inf" | "infinity" => some (.infinite negative)
  | "nan" => some .nan
  | _ => none

/-- The number that a whole text denotes. -/
def value? (text : List Char) : Option Binary64 :=
  let (negative, rest) := splitSign text
  named? negative rest <|> (decimal? rest).map (.ofDecimal negative)

end Literal

end QuantumCircuit

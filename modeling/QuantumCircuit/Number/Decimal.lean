/-!
# Decimal numbers and numerals

A `Decimal` is a whole number scaled by a power of ten.  `Decimal.positional` writes it without
an exponent; `Numeral.read` reads digits with at most one point off the front of a text, the
form in which decimals occur inside longer expressions.
-/

namespace QuantumCircuit

-- Powers with natural exponents are those of the core library, whatever else is imported.
attribute [local instance (2000)] instPowNat

/-- The number `digits * 10 ^ exponent`. -/
structure Decimal where
  digits : Nat
  exponent : Int
  deriving DecidableEq, Repr

namespace Decimal

/-- How many digits a positive number has.  The binary logarithm tells it up to one. -/
def digitCount (n : Nat) : Nat :=
  let k := n.log2 * 30103 / 100000
  if 10 ^ (k + 1) ≤ n then k + 2 else if 10 ^ k ≤ n then k + 1 else k

/-- Splits `n` decimal places off the end of a row of digits; there is at least one digit
before the point. -/
def splitPlaces (digits : List Char) (n : Nat) : List Char × List Char :=
  let padded := List.replicate (n + 1 - digits.length) '0' ++ digits
  (padded.take (padded.length - n), padded.drop (padded.length - n))

/-- The digits without the zeros at the end. -/
def dropTrailingZeros (digits : List Char) : List Char :=
  (digits.reverse.dropWhile (· == '0')).reverse

/-- The decimal written out with all its places and no exponent; zeros that end the fraction
are left out, and so is a point that nothing follows. -/
def positional (d : Decimal) : List Char :=
  let digits := Nat.toDigits 10 d.digits
  match d.exponent with
  | .ofNat e => digits ++ List.replicate e '0'
  | .negSucc e =>
    let (whole, places) := splitPlaces digits (e + 1)
    match dropTrailingZeros places with
    | [] => whole
    | fraction => whole ++ '.' :: fraction

end Decimal

/-- Digits, an optional point and more digits, as they were written. -/
structure Numeral where
  whole : List Char
  point : Bool
  fraction : List Char
  deriving DecidableEq, Repr

namespace Numeral

/-- Reads the longest numeral at the front of a text, and leaves the rest. -/
def read (text : List Char) : Numeral × List Char :=
  let whole := text.takeWhile Char.isDigit
  match text.dropWhile Char.isDigit with
  | '.' :: rest => (⟨whole, true, rest.takeWhile Char.isDigit⟩, rest.dropWhile Char.isDigit)
  | rest => (⟨whole, false, []⟩, rest)

/-- Nothing was written. -/
def isEmpty (n : Numeral) : Bool := n.whole.isEmpty && !n.point

/-- The number written; a point alone is none. -/
def value? (n : Numeral) : Option Decimal :=
  if n.whole.isEmpty && n.fraction.isEmpty then none
  else some ⟨Nat.ofDigitChars 10 (n.whole ++ n.fraction) 0, -n.fraction.length⟩

end Numeral

end QuantumCircuit

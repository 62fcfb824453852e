import QuantumCircuit.Number.Decimal
import QuantumCircuit.Number.Rounding

/-!
# Binary64 numbers

Angles are binary64 numbers.  Every finite one is a whole number of units of `2 ^ -1074`, the
smallest positive one, so all arithmetic is exact integer arithmetic on units followed by one
rounding (`Binary64.ofQuotient`).  The sizes that occur are those of at most 53 significant bits
below `2 ^ 2098` units; `Magnitude` carries both facts.

`Binary64.wrap` is the remainder that brings an angle into one turn.
-/

namespace QuantumCircuit

-- Powers with natural exponents are those of the core library, whatever else is imported.
attribute [local instance (2000)] instPowNat

open Rounding

namespace Magnitude

/-- The number of units in one. -/
def one : Nat := 2 ^ (1074 : Nat)

/-- The number of units that no finite number reaches. -/
def limit : Nat := 2 ^ (2098 : Nat)

end Magnitude

/-- The size of a finite number, counted in units of `2 ^ -1074`. -/
structure Magnitude where
  units : Nat
  spacing_dvd : spacing units ∣ units
  units_lt : units < Magnitude.limit
  deriving DecidableEq

namespace Magnitude

theorem limit_pos : 0 < limit := by simp only [limit, Nat.two_pow_pos]

/-- The magnitude of both zeros. -/
def zero : Magnitude := ⟨0, by simp, limit_pos⟩

/-- The magnitude nearest to `num / den` units, if that is not beyond the largest. -/
def ofQuotient? (num den : Nat) : Option Magnitude :=
  if h : significant num den < limit then
    some ⟨significant num den, spacing_dvd_significant num den, h⟩
  else none

/-- A whole number of units that is a magnitude is read back as that magnitude. -/
theorem ofQuotient?_units (m : Magnitude) : ofQuotient? m.units 1 = some m := by
  simp [ofQuotient?, significant_of_spacing_dvd m.spacing_dvd, m.units_lt]

end Magnitude

/-- A binary64 number. -/
inductive Binary64
  | finite (negative : Bool) (magnitude : Magnitude)
  | infinite (negative : Bool)
  | nan
  deriving DecidableEq

namespace Binary64

/-! ### Rounded results -/

/-- The zero with a sign. -/
def zero (negative : Bool) : Binary64 := finite negative .zero

/-- The number nearest to `num / den` units with the given sign; infinite beyond the largest. -/
def ofQuotient (negative : Bool) (num den : Nat) : Binary64 :=
  match Magnitude.ofQuotient? num den with
  | some m => finite negative m
  | none => infinite negative

/-- The number nearest to a whole number of units; a zero takes the sign given for it. -/
def ofUnits (negativeZero : Bool) (units : Int) : Binary64 :=
  if units = 0 then zero negativeZero else ofQuotient (decide (units < 0)) units.natAbs 1

/-- The number nearest to a natural number. -/
def ofNat (n : Nat) : Binary64 := ofQuotient false (n * Magnitude.one) 1

instance (n : Nat) : OfNat Binary64 n := ⟨ofNat n⟩

instance : Inhabited Binary64 := ⟨0⟩

/-- The number nearest to a decimal.  Beyond the two cut-offs the result is settled, so that the
power of ten never outgrows the digits. -/
def ofDecimal (negative : Bool) (d : Decimal) : Binary64 :=
  if d.digits = 0 then zero negative
  else match d.exponent with
    | .ofNat e =>
      if 309 ≤ e then infinite negative
      else ofQuotient negative (d.digits * 10 ^ e * Magnitude.one) 1
    | .negSucc e =>
      if d.digits.log2 + 1077 ≤ 3 * (e + 1) then zero negative
      else ofQuotient negative (d.digits * Magnitude.one) (10 ^ (e + 1))

/-! ### Views -/

/-- The number is neither infinite nor NaN. -/
def isFinite : Binary64 → Bool
  | finite .. => true
  | _ => false

/-- The number is one of the two zeros. -/
def isZero : Binary64 → Bool
  | finite _ m => m.units == 0
  | _ => false

/-- A whole number with a sign bit as an integer. -/
def signed (negative : Bool) (n : Nat) : Int := if negative then -n else n

/-- Position on the number line in units; an infinity lies just past the finite numbers. -/
def position? : Binary64 → Option Int
  | finite s m => some (signed s m.units)
  | infinite s => some (signed s Magnitude.limit)
  | nan => none

/-! ### Order -/

/-- Strictly below; NaN is not comparable. -/
def lt (x y : Binary64) : Bool :=
  match x.position?, y.position? with
  | some a, some b => decide (a < b)
  | _, _ => false

/-- At most; NaN is not comparable. -/
def le (x y : Binary64) : Bool :=
  match x.position?, y.position? with
  | some a, some b => decide (a ≤ b)
  | _, _ => false

instance : LT Binary64 := ⟨fun x y => x.lt y = true⟩

instance : LE Binary64 := ⟨fun x y => x.le y = true⟩

instance (x y : Binary64) : Decidable (x < y) := inferInstanceAs (Decidable (x.lt y = true))

instance (x y : Binary64) : Decidable (x ≤ y) := inferInstanceAs (Decidable (x.le y = true))

/-! ### Arithmetic -/

/-- The number with the other sign; NaN has none. -/
def neg : Binary64 → Binary64
  | finite s m => finite (!s) m
  | infinite s => infinite (!s)
  | nan => nan

/-- The number without its sign. -/
def abs : Binary64 → Binary64
  | finite _ m => finite false m
  | infinite _ => infinite false
  | nan => nan

/-- A sum of opposite numbers is positive zero. -/
def add : Binary64 → Binary64 → Binary64
  | finite s m, finite t k => ofUnits (s && t) (signed s m.units + signed t k.units)
  | finite .., infinite t => infinite t
  | infinite s, finite .. => infinite s
  | infinite s, infinite t => if s = t then infinite s else nan
  | nan, _ => nan
  | _, nan => nan

/-- The rounded product; zero times infinity is NaN. -/
def mul : Binary64 → Binary64 → Binary64
  | finite s m, finite t k => ofQuotient (s != t) (m.units * k.units) Magnitude.one
  | finite s m, infinite t | infinite s, finite t m =>
    if m.units = 0 then nan else infinite (s != t)
  | infinite s, infinite t => infinite (s != t)
  | nan, _ => nan
  | _, nan => nan

/-- The rounded quotient; zero by zero and infinity by infinity are NaN. -/
def div : Binary64 → Binary64 → Binary64
  | finite s m, finite t k =>
    if k.units = 0 then if m.units = 0 then nan else infinite (s != t)
    else ofQuotient (s != t) (m.units * Magnitude.one) k.units
  | finite s _, infinite t => zero (s != t)
  | infinite s, finite t _ => infinite (s != t)
  | infinite _, infinite _ => nan
  | nan, _ => nan
  | _, nan => nan

instance : Neg Binary64 := ⟨neg⟩

instance : Add Binary64 := ⟨add⟩

instance : Sub Binary64 := ⟨fun x y => x + -y⟩

instance : Mul Binary64 := ⟨mul⟩

instance : Div Binary64 := ⟨div⟩

/-- The remainder of a division that stops at a whole quotient; it has the sign of `x`. -/
def rem : Binary64 → Binary64 → Binary64
  | finite s m, finite _ k =>
    if k.units = 0 then nan else ofQuotient s (m.units % k.units) 1
  | finite s m, infinite _ => finite s m
  | infinite _, _ => nan
  | nan, _ => nan
  | _, nan => nan

/-- The remainder of `x` by `y` brought up to a non-negative number. -/
def wrap (x y : Binary64) : Binary64 :=
  let r := x.rem y
  if r < 0 then r + y.abs else r

/-- The nearest whole number, a half going away from zero. -/
def round : Binary64 → Binary64
  | finite s m =>
    ofQuotient s ((2 * m.units + Magnitude.one) / (2 * Magnitude.one) * Magnitude.one) 1
  | x => x

/-- The whole part, kept within 64-bit signed integers; NaN counts as zero. -/
def toInt64 : Binary64 → Int
  | finite s m => max (-2 ^ (63 : Nat)) (min (2 ^ (63 : Nat) - 1) (signed s (m.units / Magnitude.one)))
  | infinite s => if s then -2 ^ (63 : Nat) else 2 ^ (63 : Nat) - 1
  | nan => 0

/-! ### Constants -/

/-- The number nearest to π. -/
def pi : Binary64 := ofQuotient false (0x1921FB54442D18 * 2 ^ (1023 : Nat)) 1

/-- One full turn. -/
def turn : Binary64 := 2 * pi

end Binary64

end QuantumCircuit

import QuantumCircuit.Number.Binary64

/-!
# Shortest decimal text

A finite number is written with the fewest digits that read back as the same number, and among
those with the digits nearest to it.  With `k` digits only two decimals can do: the neighbours
of the number on the grid of `k`-digit decimals (`Magnitude.shortened?`).
-/

namespace QuantumCircuit

-- Powers with natural exponents are those of the core library, whatever else is imported.
attribute [local instance (2000)] instPowNat

namespace Magnitude

/-- The magnitude counted in units of `10 ^ -1074`, which is exact. -/
def exactDigits (m : Magnitude) : Nat := m.units * 5 ^ (1074 : Nat)

/-- The magnitude as an exact decimal. -/
def exact (m : Magnitude) : Decimal := ⟨m.exactDigits, -1074⟩

/-- The decimal denotes this magnitude once it is rounded. -/
def readsBack (m : Magnitude) (d : Decimal) : Bool :=
  Binary64.ofDecimal false d == .finite false m

/-- The decimal nearest to the magnitude that leaves out the last `n` exact digits and reads
back; of two equally near, the larger. -/
def shortened? (m : Magnitude) (n : Nat) : Option Decimal :=
  let below : Decimal := ⟨m.exactDigits / 10 ^ n, n - 1074⟩
  let above : Decimal := ⟨m.exactDigits / 10 ^ n + 1, n - 1074⟩
  if m.readsBack below && (2 * (m.exactDigits % 10 ^ n) < 10 ^ n || !m.readsBack above) then
    some below
  else if m.readsBack above then some above
  else none

/-- The decimal with the fewest digits that reads back.  Seventeen are always enough; the exact
decimal stands behind them. -/
def shortest (m : Magnitude) : Decimal :=
  let length := Decimal.digitCount m.exactDigits
  ((List.range 17).findSome? fun k => m.shortened? (length - (k + 1))).getD m.exact

end Magnitude

namespace Binary64

/-- The sign of a number as text. -/
def signText (negative : Bool) : List Char := if negative then ['-'] else []

/-- The text of a number: never an exponent, and no point after a whole number. -/
def toText : Binary64 → String
  | finite s m =>
    String.ofList (signText s ++ if m.units = 0 then ['0'] else m.shortest.positional)
  | infinite s => String.ofList (signText s ++ ['i', 'n', 'f'])
  | nan => "NaN"

instance : ToString Binary64 := ⟨toText⟩

end Binary64

end QuantumCircuit

import QuantumCircuit.Number.Shortest

/-!
# Writing angles

An angle is shown as a multiple of π over a small divisor when it is one up to a tiny tolerance,
and as a plain number otherwise.
-/

namespace QuantumCircuit

namespace Angle

/-- The text of `k * pi / divisor`. -/
def piFraction (k : Int) (divisor : Nat) : String :=
  let sign := if k < 0 then "-" else ""
  let multiple := if k.natAbs = 1 then "pi" else s!"{k.natAbs}*pi"
  if divisor = 1 then s!"{sign}{multiple}" else s!"{sign}{multiple}/{divisor}"

/-- The divisors that are tried, in this order. -/
def divisors : List Nat := [1, 2, 3, 4, 6, 8]

/-- How far a multiple of π may be from a whole one. -/
def snapTolerance : Binary64 := .ofDecimal false ⟨1, -9⟩

/-- The angle as a whole multiple of `pi / divisor`, if it is close to one that is not zero. -/
def wholeMultiple? (v : Binary64) (divisor : Nat) : Option Int :=
  let k := v * .ofNat divisor / .pi
  if !k.round.isZero && decide ((k - k.round).abs < snapTolerance) then some k.round.toInt64
  else none

/-- The text of an angle. -/
def write (v : Binary64) : String :=
  (divisors.findSome? fun d => (wholeMultiple? v d).map (piFraction · d)).getD (toString v)

end Angle

end QuantumCircuit

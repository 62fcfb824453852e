import QuantumCircuit.Number.Binary64

/-!
# The neutral angle

A Pauli gate is the rotation by π about its axis, so π is the angle at which a rotatable gate
counts as not rotated.
-/

namespace QuantumCircuit

namespace Angle

/-- How far from π an angle still counts as neutral. -/
def neutralTolerance : Binary64 := .ofDecimal false ⟨1, -4⟩

/-- The angle leaves a gate in its plain form.  NaN does not. -/
def isNeutral (theta : Binary64) : Bool := (theta - .pi).abs.le neutralTolerance

end Angle

end QuantumCircuit

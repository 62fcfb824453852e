import QuantumCircuit.Number.Shortest

/-!
# Settings

What an editing session starts from, and the faults that settings can have.
-/

namespace QuantumCircuit

/-- What an editing session starts from. -/
structure Settings where
  wires : Nat := 3
  depth : Nat := 18
  /-- The angle that one rotation key adds or takes away. -/
  rotationStep : Binary64 := .pi / 8
  /-- The file that a program is saved to. -/
  output : String := "circuit.qasm"
  deriving DecidableEq

/-- What is wrong with settings. -/
inductive SettingsFault
  | noWires
  | noColumns
  | badRotationStep (step : Binary64)
  deriving DecidableEq

/-- The text that is shown for a fault. -/
def SettingsFault.message : SettingsFault → String
  | noWires => "qubit count must be at least 1"
  | noColumns => "circuit depth must be at least 1"
  | badRotationStep step => s!"rotation step {step} must be finite and non-zero"

/-- The first fault of the settings: there must be a wire and a column, and the rotation step
must be finite and not zero. -/
def Settings.fault? (s : Settings) : Option SettingsFault :=
  if s.wires = 0 then some .noWires
  else if s.depth = 0 then some .noColumns
  else if !s.rotationStep.isFinite || s.rotationStep.isZero then
    some (.badRotationStep s.rotationStep)
  else none

end QuantumCircuit

import QuantumCircuit.Kind

/-!
# The palette

The gates that can be put down, each with its key.
-/

namespace QuantumCircuit

/-- A gate that can be put down, with its key and its name. -/
structure PaletteEntry where
  key : Char
  name : String
  symbol : Symbol
  deriving DecidableEq, Repr

namespace PaletteEntry

/-- The kind that the key of the entry puts down. -/
def kind (e : PaletteEntry) : Kind := .plain e.symbol

/-- The gate of the entry takes angles. -/
def takesAngles (e : PaletteEntry) : Bool := e.symbol.isRotatable

end PaletteEntry

/-- All entries in the order in which they are listed. -/
def palette : List PaletteEntry :=
  [⟨'x', "Pauli-X (NOT)", .x⟩,
   ⟨'y', "Pauli-Y", .y⟩,
   ⟨'z', "Pauli-Z", .z⟩,
   ⟨'h', "Hadamard", .hadamard⟩,
   ⟨'s', "Phase (S)", .phase⟩,
   ⟨'S', "Phase Dagger (S†)", .phaseDagger⟩,
   ⟨'t', "T Gate", .t⟩,
   ⟨'T', "T Dagger (T†)", .tDagger⟩,
   ⟨'i', "Identity", .identity⟩,
   ⟨'w', "SWAP", .swap⟩,
   ⟨'m', "Measure", .measure⟩]

/-- The entry of a key. -/
def entryOfKey? (key : Char) : Option PaletteEntry := palette.find? (·.key == key)

/-- No key stands for two gates. -/
example : (palette.map (·.key)).Nodup := by decide

/-- Every entry is a gate. -/
example : ∀ e ∈ palette, e.symbol.isNull = false := by decide

end QuantumCircuit

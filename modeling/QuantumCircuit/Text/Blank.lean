/-!
# Blank characters

The characters with the Unicode property `White_Space`, and the removal of blanks at the ends of
a text.
-/

namespace QuantumCircuit

namespace Text

/-- The ranges of code points with the property `White_Space`. -/
def blankRanges : List (Nat × Nat) :=
  [(0x09, 0x0D), (0x20, 0x20), (0x85, 0x85), (0xA0, 0xA0), (0x1680, 0x1680), (0x2000, 0x200A),
   (0x2028, 0x2029), (0x202F, 0x202F), (0x205F, 0x205F), (0x3000, 0x3000)]

/-- The character has the property `White_Space`. -/
def isBlank (c : Char) : Bool :=
  blankRanges.any fun (first, last) => first ≤ c.toNat && c.toNat ≤ last

/-- The property holds of 25 code points. -/
example : ((blankRanges.map fun (first, last) => last + 1 - first).sum) = 25 := by decide

/-- The text without the blanks it starts with. -/
def dropBlanks (text : List Char) : List Char := text.dropWhile isBlank

/-- The text without the blanks at either end. -/
def trim (text : List Char) : List Char :=
  (dropBlanks (dropBlanks text).reverse).reverse

/-- `trim` on strings. -/
def trimmed (text : String) : String := String.ofList (trim text.toList)

end Text

end QuantumCircuit

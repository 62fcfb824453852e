/-!
# Layers

A screen is made of layers.  A layer shows a glyph in some of the places and lets the layers
under it show through in all others; layers are cut off at the edges of the screen because
nobody looks there.
-/

namespace QuantumCircuit

/-- The colours in use. -/
inductive Colour
  | blue
  | purple
  | green
  | orange
  | cyan
  | yellow
  | dim
  | red
  | pale
  deriving DecidableEq, Repr

/-- The shares of red, green and blue, each below 256. -/
def Colour.rgb : Colour → Nat × Nat × Nat
  | blue => (122, 162, 247)
  | purple => (187, 154, 247)
  | green => (158, 206, 106)
  | orange => (255, 158, 100)
  | cyan => (115, 218, 202)
  | yellow => (224, 175, 104)
  | dim => (86, 95, 137)
  | red => (247, 118, 142)
  | pale => (192, 202, 245)

/-- A number below 256 as two hexadecimal digits. -/
def hexByte (n : Nat) : List Char := [Nat.digitChar (n / 16), Nat.digitChar (n % 16)]

/-- Red, green and blue, two hexadecimal digits each. -/
def Colour.hex (c : Colour) : String :=
  let (r, g, b) := c.rgb
  String.ofList (hexByte r ++ hexByte g ++ hexByte b)

/-- How a glyph is shown; without a colour it has that of the terminal. -/
structure Style where
  colour : Option Colour := none
  bold : Bool := false
  deriving DecidableEq, Repr

/-- A colour as a style. -/
def Colour.style (c : Colour) : Style := { colour := some c }

/-- A colour in bold as a style. -/
def Colour.bold (c : Colour) : Style := { colour := some c, bold := true }

/-- One character on the screen. -/
structure Glyph where
  char : Char
  style : Style
  deriving DecidableEq, Repr

/-- The glyph of a place where nothing is drawn. -/
def Glyph.blank : Glyph := ⟨' ', {}⟩

/-- A rectangle of places. -/
structure Area where
  x : Nat
  y : Nat
  width : Nat
  height : Nat
  deriving DecidableEq, Repr

namespace Area

/-- The place is in the area. -/
def contains (a : Area) (x y : Nat) : Bool :=
  a.x ≤ x && x < a.x + a.width && a.y ≤ y && y < a.y + a.height

/-- The area inside a border of one glyph. -/
def inner (a : Area) : Area := ⟨a.x + 1, a.y + 1, a.width - 2, a.height - 2⟩

end Area

/-- What is drawn at a column and a row of the screen. -/
abbrev Layer := Nat → Nat → Option Glyph

/-- A row of glyphs. -/
abbrev Line := Array Glyph

namespace Line

/-- A text in one style. -/
def ofChars (style : Style) (text : List Char) : Line := (text.map (⟨·, style⟩)).toArray

/-- A string in one style. -/
def ofString (style : Style) (text : String) : Line := ofChars style text.toList

end Line

namespace Layer

/-- An area filled with blanks. -/
def fill (a : Area) (style : Style) : Layer := fun x y =>
  if a.contains x y then some ⟨' ', style⟩ else none

/-- Lines from the top left of an area, cut off at its right and bottom. -/
def lines (a : Area) (ls : Array Line) : Layer := fun x y =>
  if a.contains x y then ls[y - a.y]? >>= (·[x - a.x]?) else none

/-- The character of a border around an area at one of its places.  In an area one glyph wide or
high the left corners stand over the right ones and the upper over the lower. -/
def borderChar? (a : Area) (x y : Nat) : Option Char :=
  let top := y == a.y
  let bottom := y + 1 == a.y + a.height
  let left := x == a.x
  let right := x + 1 == a.x + a.width
  if top && left then some '┌'
  else if bottom && left then some '└'
  else if top && right then some '┐'
  else if bottom && right then some '┘'
  else if top || bottom then some '─'
  else if left || right then some '│'
  else none

/-- A border around an area. -/
def border (a : Area) (style : Style) : Layer := fun x y =>
  if a.contains x y then (borderChar? a x y).map (⟨·, style⟩) else none

/-- A title over the upper border of an area. -/
def title (a : Area) (text : Line) : Layer :=
  lines ⟨a.x + 1, a.y, a.width - 2, min a.height 1⟩ #[text]

end Layer

end QuantumCircuit

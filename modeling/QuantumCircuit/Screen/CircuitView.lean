import QuantumCircuit.Editor

/-!
# The view of a circuit

A circuit is drawn as text, three lines for each wire and nine characters for each column.
Gates are boxes or single glyphs on the wire; vertical lines join a gate with the rows it is
linked to.  The columns that fit are chosen so that the column of the cursor is among them.
-/

namespace QuantumCircuit

namespace CircuitView

/-- Characters for each column. -/
def cellWidth : Nat := 9

/-- Characters in front of the first column. -/
def labelWidth : Nat := 7

/-- Characters for the name of a gate in its box. -/
def nameWidth : Nat := 5

/-- `n` times the same character. -/
def run (n : Nat) (c : Char) : List Char := List.replicate n c

/-- A text in the middle of a field, half a character to the left if need be; a text that does
not fit is cut off. -/
def centred (text : List Char) (width : Nat) : List Char :=
  if width ≤ text.length then text.take width
  else
    let spare := width - text.length
    run (spare / 2) ' ' ++ text ++ run (spare - spare / 2) ' '

/-- A text with blanks behind it up to a width. -/
def padded (text : List Char) (width : Nat) : List Char :=
  text ++ run (width - text.length) ' '

theorem length_centred (text : List Char) (width : Nat) : (centred text width).length = width := by
  simp only [centred, run]
  split
  · rw [List.length_take]
    omega
  · simp only [List.length_append, List.length_replicate]
    omega

/-! ### Links -/

/-- The highest and the lowest of a node's row and the rows it is linked to, if they differ. -/
def extent? (x : Node) : Option (Nat × Nat) :=
  let lo := x.links.foldl min x.row
  let hi := x.links.foldl max x.row
  if lo = hi then none else some (lo, hi)

/-- The extents of all links in a column. -/
def extents {n : Nat} (c : Column n) : List (Nat × Nat) := c.cells.toList.filterMap extent?

/-- A link comes into a row from above. -/
def linesAbove (extents : List (Nat × Nat)) (row : Nat) : Bool :=
  extents.any fun (lo, hi) => lo < row && row ≤ hi

/-- A link goes out of a row downwards. -/
def linesBelow (extents : List (Nat × Nat)) (row : Nat) : Bool :=
  extents.any fun (lo, hi) => lo ≤ row && row < hi

/-! ### Cells -/

/-- The three lines of one cell or one wire. -/
structure Strip where
  top : List Char
  middle : List Char
  bottom : List Char
  deriving DecidableEq, Repr

/-- Strips side by side. -/
def Strip.append (a b : Strip) : Strip :=
  ⟨a.top ++ b.top, a.middle ++ b.middle, a.bottom ++ b.bottom⟩

/-- How a cell is drawn. -/
structure CellLook where
  kind : Kind
  /-- A link comes in from above. -/
  above : Bool
  /-- A link goes out below. -/
  below : Bool
  deriving DecidableEq, Repr

/-- The kinds that are a single glyph on the wire. -/
def isGlyph : Kind → Bool
  | .plain .control | .plain .trace | .plain .swap | .toffoli => true
  | .controlled .x | .controlled .z | .controlled .swap => true
  | _ => false

/-- A label in the middle of a wire of some width. -/
def onWire (label : List Char) (width : Nat) : List Char :=
  run ((width - 1) / 2) '─' ++ label ++ run (width - (width - 1) / 2 - 1) '─'

/-- A line above or below a cell, with a vertical line or without. -/
def stub (isLinked : Bool) : List Char :=
  if isLinked then run (cellWidth / 2) ' ' ++ ['│'] ++ run (cellWidth - cellWidth / 2 - 1) ' '
  else run cellWidth ' '

/-- The name of a gate between the sides of its box. -/
def named (kind : Kind) : List Char := ['┤'] ++ centred kind.label.toList nameWidth ++ ['├']

/-- The upper or lower edge of the box of a gate. -/
def boxEdge (left middle right : Char) : List Char :=
  let margin := (cellWidth - nameWidth - 2) / 2
  run margin ' ' ++ [left] ++ onWire [middle] nameWidth ++ [right]
    ++ run (cellWidth - margin - nameWidth - 2) ' '

/-- A cell without the cursor. -/
def CellLook.draw (look : CellLook) : Strip :=
  if isGlyph look.kind then
    ⟨stub look.above, onWire look.kind.label.toList cellWidth, stub look.below⟩
  else if look.kind != .empty then
    let margin := (cellWidth - nameWidth - 2) / 2
    ⟨boxEdge '┌' (if look.above then '┴' else '─') '┐',
     run margin '─' ++ named look.kind ++ run (cellWidth - margin - nameWidth - 2) '─',
     boxEdge '└' (if look.below then '┬' else '─') '┘'⟩
  else if look.above && look.below then ⟨stub true, onWire ['┼'] cellWidth, stub true⟩
  else ⟨stub look.above, run cellWidth '─', stub look.below⟩

/-- A cell in the frame of the cursor. -/
def CellLook.drawSelected (look : CellLook) : Strip :=
  let width := cellWidth - 2
  let wire :=
    if isGlyph look.kind then onWire look.kind.label.toList width
    else if look.kind != .empty then named look.kind
    else if look.above && look.below then onWire ['┼'] width
    else run width '─'
  ⟨['╔'] ++ run width '═' ++ ['╗'], ['║'] ++ wire ++ ['║'], ['╚'] ++ run width '═' ++ ['╝']⟩

/-! ### Lines -/

/-- How many columns fit into a width, at least one. -/
def columnsThatFit (width : Nat) : Nat := max ((width - (labelWidth + 2)) / cellWidth) 1

/-- The first column that is drawn. -/
def firstColumn (cursor width : Nat) : Nat := cursor + 1 - columnsThatFit width

/-- The columns that are drawn. -/
def shownColumns (depth cursor width : Nat) : List Nat :=
  let first := firstColumn cursor width
  List.range' first (min (first + columnsThatFit width) depth - first)

/-- The line of column numbers. -/
def header (columns : List Nat) : List Char :=
  run labelWidth ' ' ++ columns.flatMap fun col => centred (toString col).toList cellWidth

/-- What stands in front of a wire. -/
def wireLabel (row : Nat) : Strip :=
  ⟨run labelWidth ' ', padded s!"q[{row}]".toList (labelWidth - 2) ++ run 2 '─',
   run labelWidth ' '⟩

variable {n d : Nat}

/-- A cell of the circuit, framed if the cursor is shown there. -/
def cellStrip (e : Editor n d) (showsCursor : Bool) (row col : Nat) : Strip :=
  let column := e.circuit.column col
  let links := extents column
  let look : CellLook := ⟨column.reading row, linesAbove links row, linesBelow links row⟩
  if showsCursor && e.cursor == ⟨row, col⟩ then look.drawSelected else look.draw

/-- One wire. -/
def wireStrip (e : Editor n d) (showsCursor : Bool) (columns : List Nat) (row : Nat) : Strip :=
  columns.foldl (fun strip col => strip.append (cellStrip e showsCursor row col)) (wireLabel row)

/-- All lines of the view: the column numbers, and three lines for each wire. -/
def lines (e : Editor n d) (showsCursor : Bool) (width : Nat) : List (List Char) :=
  let columns := shownColumns d e.cursor.col width
  header columns :: (List.range n).flatMap fun row =>
    let strip := wireStrip e showsCursor columns row
    [strip.top, strip.middle, strip.bottom]

end CircuitView

end QuantumCircuit

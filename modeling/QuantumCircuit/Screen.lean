import QuantumCircuit.Screen.CircuitView
import QuantumCircuit.Screen.Layer
import QuantumCircuit.Session

/-!
# The screen of a session

The screen has three panels: the circuit, the program beside it, and the keys in use under both.
The angle prompt or the help lies over them.  `Screen.draw` gives the glyph at every place.
-/

namespace QuantumCircuit

namespace Screen

/-! ### Layout -/

/-- The height of the panel of keys. -/
def keysHeight (height : Nat) : Nat := min 3 height

/-- The width of the program panel: a third of the screen, but enough for a line of program, as
long as some room is left for the circuit. -/
def programWidth (width : Nat) : Nat := min (max (width / 3) 30) (width - 20)

/-- The place of the circuit: what the other two panels leave. -/
def circuitArea (width height : Nat) : Area :=
  ⟨0, 0, width - programWidth width, height - keysHeight height⟩

/-- The place of the program, to the right. -/
def programArea (width height : Nat) : Area :=
  ⟨width - programWidth width, 0, programWidth width, height - keysHeight height⟩

/-- The place of the keys, along the lower edge. -/
def keysArea (width height : Nat) : Area :=
  ⟨0, height - keysHeight height, width, keysHeight height⟩

/-- The place of something that lies over the panels. -/
def overlayArea (width height w h : Nat) : Area := ⟨2, 2, min w (width - 4), min h (height - 4)⟩

/-- A bordered panel with a title, from the top layer down. -/
def panel (a : Area) (titleText : String) (borderColour : Colour) : List Layer :=
  [.title a (Line.ofString Colour.orange.bold titleText), .border a borderColour.style]

/-! ### Panels -/

variable {n d : Nat}

/-- The line under the circuit: the place of the cursor, what is there, and the status. -/
def statusLine (s : Session n d) : Line :=
  let e := s.editor
  let place := Line.ofString Colour.dim.style s!"  Column {e.cursor.col}, Qubit {e.cursor.row}"
  let angle :=
    if e.selected.kind.isRotatable then " θ=" ++ Angle.write e.selected.theta else ""
  let gate :=
    if e.selectedKind == .empty then #[]
    else Line.ofString Colour.cyan.style s!"  │  {e.selectedKind}{angle}"
  let status :=
    if e.status.isEmpty then #[] else Line.ofString Colour.red.style s!"  │  {e.status}"
  place ++ gate ++ status

/-- The view of the circuit with the status line under it.  The cursor is not shown while the
program has the focus. -/
def circuitPanel (s : Session n d) (a : Area) : List Layer :=
  let view := CircuitView.lines s.editor (s.focus != .program) a.inner.width
  .lines a.inner ((view.map (Line.ofChars {})).toArray.push (statusLine s))
    :: panel a "Circuit" (if s.focus = .circuit then .orange else .blue)

/-- The program from the line on that it is scrolled to. -/
def programPanel (s : Session n d) (a : Area) : List Layer :=
  let shown := s.editor.circuit.programLines.drop s.scroll.toNat
  let title := if s.focus = .program then "OpenQASM [SCROLL]" else "OpenQASM"
  [.lines a.inner (shown.map (Line.ofString Colour.pale.style)).toArray,
   .fill a.inner Colour.pale.style]
    ++ panel a title (if s.focus = .program then .orange else .purple)

/-- The keys that are in use. -/
def keysText : Focus → String
  | .program => "OpenQASM:  ↑↓ Scroll  Tab Back to circuit  q Quit"
  | .anglePrompt => "Angle:  Enter Apply  Esc Cancel"
  | .circuit => "↑↓←→ Move  x y z h s t i w m Gate  c Control  C 2nd ctrl  p Swap  "
      ++ "[ ] Move ctrl  +/- Rotate  r Angle  Bksp Del  ? Help  Ctrl+S Save  q Quit"

/-- The keys that are in use, in one line. -/
def keysPanel (s : Session n d) (a : Area) : List Layer :=
  [.lines a.inner #[Line.ofString Colour.yellow.style (keysText s.focus)],
   .border a Colour.green.style]

/-! ### Overlays -/

/-- A line of the help: the key, name and label of a gate, and a mark if it takes angles. -/
def paletteLine (e : PaletteEntry) : Line :=
  Line.ofString Colour.cyan.bold s!"  {e.key}  "
    ++ Line.ofChars Colour.pale.style (CircuitView.padded e.name.toList 20)
    ++ Line.ofString Colour.dim.style (e.kind.label ++ if e.takesAngles then "  θ" else "")

/-- The lines of the help: all gates, and how to take a gate away and to close the help. -/
def helpLines : Array Line :=
  #[#[]] ++ (palette.map paletteLine).toArray
    ++ #[#[], Line.ofString Colour.dim.style "Same key again removes the gate",
      Line.ofString Colour.dim.style "? or Esc closes"]

/-- The lines of the angle prompt: the text in it, and what can be written. -/
def promptLines (s : Session n d) : Array Line :=
  #[#[], Line.ofString Colour.pale.style s!"θ: {s.prompt}_", #[],
    Line.ofString Colour.dim.style "Examples: pi/2, 3*pi/4, 1.57"]

/-- Lines in a titled panel over whatever is under it. -/
def overlay (a : Area) (titleText : String) (ls : Array Line) : List Layer :=
  .lines a.inner ls :: panel a titleText .orange ++ [.fill a {}]

/-- What lies over the panels. -/
def overlays (s : Session n d) (width height : Nat) : List Layer :=
  if s.focus = .anglePrompt then
    overlay (overlayArea width height 40 7) "Set Angle" (promptLines s)
  else if s.showsHelp then
    overlay (overlayArea width height 44 (palette.length + 6)) "Gates" helpLines
  else []

/-! ### The whole screen -/

/-- All layers of the screen, from the top down. -/
def layers (s : Session n d) (width height : Nat) : List Layer :=
  overlays s width height
    ++ keysPanel s (keysArea width height)
    ++ programPanel s (programArea width height)
    ++ circuitPanel s (circuitArea width height)

/-- The rows of glyphs of a screen of some size. -/
def draw (s : Session n d) (width height : Nat) : List (List Glyph) :=
  let ls := layers s width height
  (List.range height).map fun y => (List.range width).map fun x =>
    (ls.findSome? (· x y)).getD .blank

/-- A screen on which nothing has been drawn. -/
def blank (width height : Nat) : List (List Glyph) :=
  List.replicate height (List.replicate width .blank)

/-- The text of a row. -/
def rowText (row : List Glyph) : String := String.ofList (row.map (·.char))

/-- A row cut into the longest pieces of one style. -/
def styleRuns (row : List Glyph) : List (Style × String) :=
  (row.splitBy (·.style == ·.style)).map fun piece =>
    ((piece.head?.map (·.style)).getD {}, rowText piece)

end Screen

end QuantumCircuit

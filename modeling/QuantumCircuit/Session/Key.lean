/-!
# Keys and events

What a terminal reports: keys with their modifiers, and events that are no key press.
`Event.ofName?` reads the names of those that a session or a terminal tells apart.
-/

namespace QuantumCircuit

/-- A key of the keyboard. -/
inductive KeyCode
  | char (c : Char)
  | up
  | down
  | left
  | right
  | tab
  | backTab
  | escape
  | enter
  | backspace
  | delete
  | home
  | function (number : Nat)
  /-- A key of another name, such as End, Insert or a key for the volume. -/
  | other (name : String)
  deriving DecidableEq, Repr

/-- A key together with the modifiers held down. -/
structure Key where
  code : KeyCode
  control : Bool := false
  shift : Bool := false
  alt : Bool := false
  deriving DecidableEq, Repr

/-- Something that happens at the terminal. -/
inductive Event
  | press (key : Key)
  | release (key : Key)
  | hold (key : Key)
  | paste (text : String)
  | resize (width height : Nat)
  | idle
  /-- Anything else that is reported, such as the mouse or a change of focus. -/
  | other (name : String)
  deriving DecidableEq, Repr

namespace KeyCode

/-- The key of a name: one character stands for itself. -/
def ofName? : List Char → Option KeyCode
  | [c] => some (.char c)
  | name =>
    match String.ofList name with
    | "Up" => some .up
    | "Down" => some .down
    | "Left" => some .left
    | "Right" => some .right
    | "Tab" => some .tab
    | "BackTab" => some .backTab
    | "Esc" => some .escape
    | "Enter" => some .enter
    | "Backspace" => some .backspace
    | "Delete" => some .delete
    | "Home" => some .home
    | "F1" => some (.function 1)
    | _ => none

end KeyCode

/-- The key of a name with modifiers in front: `C-` for control, `S-` for shift, `A-` for alt.
The last two characters are never taken for a modifier. -/
def Key.ofName? : List Char → Option Key
  | 'C' :: '-' :: c :: rest => (Key.ofName? (c :: rest)).map ({ · with control := true })
  | 'S' :: '-' :: c :: rest => (Key.ofName? (c :: rest)).map ({ · with shift := true })
  | 'A' :: '-' :: c :: rest => (Key.ofName? (c :: rest)).map ({ · with alt := true })
  | name => (KeyCode.ofName? name).map ({ code := · })

namespace Event

/-- The width and height of a terminal, with a blank between them. -/
def sizeOfText? (text : String) : Option (Nat × Nat) :=
  match (text.toList.splitOn ' ').map String.ofList with
  | [width, height] => do return (← width.toNat?, ← height.toNat?)
  | _ => none

/-- The event of a name: a key is pressed, unless an exclamation mark and a word say what
happens instead. -/
def ofName? (name : String) : Option Event :=
  match name.toList with
  | '!' :: c :: rest =>
    let word := (c :: rest).takeWhile (· != ' ')
    let argument := ((c :: rest).dropWhile (· != ' ')).drop 1
    match String.ofList word with
    | "release" => (Key.ofName? argument).map .release
    | "repeat" => (Key.ofName? argument).map .hold
    | "paste" => some (.paste (String.ofList argument))
    | "resize" => (sizeOfText? (String.ofList argument)).map fun (w, h) => .resize w h
    | "idle" => some .idle
    | _ => none
  | text => (Key.ofName? text).map .press

end Event

end QuantumCircuit

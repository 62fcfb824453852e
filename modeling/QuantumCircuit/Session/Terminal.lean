import QuantumCircuit.Screen
import QuantumCircuit.Session.Folder

/-!
# Terminals

A session together with what surrounds it: the size of the terminal, what was drawn on it last,
and the folder that programs are saved to.  The terminal is drawn before and after every event,
except after one that ends the session.
-/

namespace QuantumCircuit

/-- A terminal with a session over a circuit of `n` wires and `d` columns. -/
structure Terminal (n d : Nat) where
  session : Session n d
  width : Nat
  height : Nat
  /-- The session as it was drawn last; nothing has been drawn at first. -/
  drawn : Option (Session n d)
  folder : Folder
  hasEnded : Bool

namespace Terminal

variable {n d : Nat}

/-- A terminal on which nothing has been drawn, with an empty folder. -/
def start (session : Session n d) (width height : Nat) : Terminal n d :=
  ⟨session, width, height, none, .empty, false⟩

/-- Does what a session asks for. -/
def serve (t : Terminal n d) : Request → Terminal n d
  | .nothing => t
  | .quit => { t with hasEnded := true }
  | .save path text =>
    match t.folder.write path text with
    | .ok folder => { t with folder, session := t.session.reportSave none }
    | .error fault => { t with session := t.session.reportSave fault.message }

/-- Takes the size of a resized terminal. -/
def resize (t : Terminal n d) : Event → Terminal n d
  | .resize width height => { t with width, height }
  | _ => t

/-- Draws, lets the session handle an event, and draws again unless the session has ended. -/
def run (t : Terminal n d) (e : Event) : Terminal n d :=
  let (session, request) := t.session.handle e
  let after := serve { t.resize e with session, drawn := some t.session } request
  if after.hasEnded then after else { after with drawn := some after.session }

/-- The rows of glyphs on the terminal. -/
def screen (t : Terminal n d) : List (List Glyph) :=
  match t.drawn with
  | some s => Screen.draw s t.width t.height
  | none => Screen.blank t.width t.height

end Terminal

end QuantumCircuit

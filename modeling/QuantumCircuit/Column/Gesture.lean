import QuantumCircuit.Column.Links
import QuantumCircuit.Column.Removal

/-!
# Gestures

What a user does at one cell: put down a new gate, or toggle its gate, its controls or its swap
partner.  A toggle looks for a row that will do: the first control goes to a neighbouring row,
a second control and a swap partner go to the nearest free row, the upper one of two.
-/

namespace QuantumCircuit

/-- A gate that can be put down: a symbol that stands for a gate, and finite angles. -/
structure NewGate where
  symbol : Symbol
  angles : List Binary64
  isNull_symbol : symbol.isNull = false
  isFinite_angles : ∀ a ∈ angles, a.isFinite = true

/-- The gate of a kind with the given angles.  Kinds that come about by rotation and controls
cannot be put down, nor the marks that links leave. -/
def NewGate.of {Place : Type} (kind : Kind) (angles : List Binary64) :
    Except (EditError Place) NewGate :=
  match kind with
  | .plain symbol =>
    if hs : symbol.isNull = false then
      match ha : angles.find? (!·.isFinite) with
      | some bad => .error (.invalidAngle (toString bad))
      | none => .ok ⟨symbol, angles, hs, by simpa using ha⟩
    else .error (.unplaceable kind)
  | _ => .error (.unplaceable kind)

namespace Column

variable {n : Nat}

/-! ### Putting down a gate -/

/-- The node of a new gate, whose angles are the turn about its axis and two more. -/
def newNode (g : NewGate) : Except (EditError Nat) Node :=
  match g.angles with
  | [] => .ok (.ofSymbol g.symbol)
  | theta :: more =>
    if !g.symbol.isRotatable then .error (.unrotatable (.plain g.symbol))
    else if 2 < more.length then
      .error (.invalidAngle s!"{g.angles.length} angles given, at most 3 accepted")
    else .ok { Node.ofSymbol g.symbol with
      theta := theta.wrap .turn, phi := more[0]?, lambda := more[1]? }

/-- Puts a new gate into a row that shows nothing. -/
def placeNew (c : Column n) (row : Nat) (g : NewGate) : Except (EditError Nat) (Column n) := do
  c.checkRow row
  if c.reading row == .empty then
    let x ← newNode g
    c.place row x
  else .error (c.occupied row)

/-- Puts a gate into an empty row, or deletes the gate in the row if it is the same. -/
def toggleGate (c : Column n) (row : Nat) (kind : Kind) :
    Except (EditError Nat) (Column n) := do
  c.checkRow row
  if c.reading row == .empty then
    let g ← NewGate.of kind []
    c.placeNew row g
  else if (c.node row).kind != .empty && (c.node row).symbol == kind.symbol then c.delete row
  else .error (c.occupied row)

/-- Turns the gate in a row to an angle. -/
def rotateTo (c : Column n) (row : Nat) (theta : Binary64) : Except (EditError Nat) (Column n) :=
  c.rotate row (theta - (c.node row).theta)

/-! ### Looking for a row -/

/-- The rows above and below a row, the upper one first. -/
def neighbours (_ : Column n) (row : Nat) : List Nat :=
  (Direction.up.nextRow? n row).toList ++ (Direction.down.nextRow? n row).toList

/-- The rows at a distance from a row, the upper one first. -/
def rowsAt (_ : Column n) (row distance : Nat) : List Nat :=
  (if distance ≤ row then [row - distance] else []) ++
    (if row + distance < n then [row + distance] else [])

/-- All other rows, nearest first, and the upper one of two. -/
def nearestRows (c : Column n) (row : Nat) : List Nat :=
  (List.range' 1 (n - 1)).flatMap (c.rowsAt row)

/-- The first success among the rows, or the last fault. -/
def firstSuccess {α : Type} (attempt : Nat → Except (EditError Nat) α) (fault : EditError Nat) :
    List Nat → Except (EditError Nat) α
  | [] => .error fault
  | row :: rest =>
    match attempt row with
    | .ok a => .ok a
    | .error e => firstSuccess attempt e rest

/-- The outcome at the first row that is not occupied. -/
def firstUnoccupied {α : Type} (attempt : Nat → Except (EditError Nat) α)
    (fault : EditError Nat) : List Nat → Except (EditError Nat) α
  | [] => .error fault
  | row :: rest =>
    match attempt row with
    | .ok a => .ok a
    | .error e => if e.isOccupied then firstUnoccupied attempt fault rest else .error e

/-- Drops the controls of a gate, or attaches one in a neighbouring row. -/
def toggleControl (c : Column n) (row : Nat) : Except (EditError Nat) (Column n) := do
  c.checkRow row
  if (c.node row).controls.isEmpty then
    firstSuccess (c.attachControl row) (.blocked row) (c.neighbours row)
  else c.detachControls row

/-- Attaches a second control in the nearest free row, and tells that row. -/
def addSecondControl (c : Column n) (row : Nat) :
    Except (EditError Nat) (Column n × Nat) := do
  c.checkRow row
  firstUnoccupied (fun r => (c.attachSecondControl row r).map (·, r)) (.blocked row)
    (c.nearestRows row)

/-- Parts a swap from its partner, or makes the nearest free row its partner. -/
def toggleSwap (c : Column n) (row : Nat) : Except (EditError Nat) (Column n) := do
  c.checkRow row
  if (c.node row).partner.isSome then c.place row { c.node row with partner := none }
  else firstUnoccupied (c.attachPartner row) (.occupied row .swap) (c.nearestRows row)

end Column

end QuantumCircuit

import QuantumCircuit.Angle.Neutral
import QuantumCircuit.Kind
import QuantumCircuit.Number.Shortest

/-!
# Nodes

A `Node` is what one cell of a circuit holds: a symbol, angles, and the rows of the same column
that it is linked to.  Its kind is not stored but read off these (`Node.kind`), so it cannot
disagree with them.
-/

namespace QuantumCircuit

/-- The contents of a cell. -/
structure Node where
  symbol : Symbol
  /-- The row the node stands in; zero until it is put into a column. -/
  row : Nat
  theta : Binary64
  phi : Option Binary64
  lambda : Option Binary64
  /-- The row of the first control. -/
  control : Option Nat
  /-- The row of the second control. -/
  secondControl : Option Nat
  /-- The other row that a swap acts on. -/
  partner : Option Nat
  deriving DecidableEq

namespace Node

/-- The node of a bare symbol. -/
def ofSymbol (s : Symbol) : Node := ⟨s, 0, .pi, none, none, none, none, none⟩

/-- The node of the gate under a kind; rotation and controls come from angles and links. -/
def ofKind (k : Kind) : Node := ofSymbol k.symbol

/-- The node standing in a row. -/
def atRow (x : Node) (row : Nat) : Node := { x with row }

/-- A cell of a row that holds nothing. -/
def blank (row : Nat) : Node := (ofSymbol .empty).atRow row

/-- The mark of a control input. -/
def controlMark (row : Nat) : Node := (ofSymbol .control).atRow row

/-- The mark of a wire that a link passes. -/
def traceMark (row : Nat) : Node := (ofSymbol .trace).atRow row

/-- The node turns by an angle of its own. -/
def isRotated (x : Node) : Bool := !Angle.isNeutral x.theta

/-- The kind of the node. -/
def kind (x : Node) : Kind :=
  .of x.symbol x.isRotated x.control.isSome x.secondControl.isSome

/-- The rows of the controls, the first control in front. -/
def controls (x : Node) : List Nat := x.control.toList ++ x.secondControl.toList

/-- All rows the node is linked to, the controls in front. -/
def links (x : Node) : List Nat := x.controls ++ x.partner.toList

/-- Every control that the node has acts on it. -/
def controlsAct (x : Node) : Bool :=
  (x.controls.isEmpty || x.kind.isControlled) &&
    (x.secondControl.isNone || x.kind == .toffoli)

/-- The kind keeps the symbol. -/
theorem symbol_kind (x : Node) : x.kind.symbol = x.symbol := Kind.symbol_of ..

theorem kind_atRow (x : Node) (row : Nat) : (x.atRow row).kind = x.kind := rfl

theorem mem_controls {x : Node} {row : Nat} :
    row ∈ x.controls ↔ x.control = some row ∨ x.secondControl = some row := by
  simp [controls, Option.mem_toList]

theorem mem_links {x : Node} {row : Nat} :
    row ∈ x.links ↔ row ∈ x.controls ∨ x.partner = some row := by
  simp [links, Option.mem_toList]

/-- The angles that an instruction names: none for a node that is not rotated. -/
def angles (x : Node) : List Binary64 :=
  if x.isRotated then x.theta :: (x.phi.toList ++ x.lambda.toList) else []

/-- A field of a description that is only there with a value. -/
def field {α : Type} [ToString α] (name : String) : Option α → String
  | some v => s!", {name}: {v}"
  | none => ""

/-- A one-line description of the node. -/
def describe (x : Node) : String :=
  s!"type: {x.kind}, qubit index: {x.row}"
    ++ field "theta" (if x.isRotated then some x.theta else none)
    ++ field "phi" x.phi ++ field "lambda" x.lambda
    ++ field "ctrl_a" x.control ++ field "ctrl_b" x.secondControl ++ field "swap" x.partner

end Node

end QuantumCircuit

import QuantumCircuit.Angle.Neutral
import QuantumCircuit.Angle.Reading
import QuantumCircuit.Angle.Writing
import QuantumCircuit.Circuit
import QuantumCircuit.Column.Basic
import QuantumCircuit.Column.Edit
import QuantumCircuit.Column.Gesture
import QuantumCircuit.Column.Links
import QuantumCircuit.Column.Placement
import QuantumCircuit.Column.Removal
import QuantumCircuit.CommandLine
import QuantumCircuit.Direction
import QuantumCircuit.EditError
import QuantumCircuit.Editor
import QuantumCircuit.Kind
import QuantumCircuit.Main
import QuantumCircuit.Node
import QuantumCircuit.Node.Instruction
import QuantumCircuit.Number.Binary64
import QuantumCircuit.Number.Decimal
import QuantumCircuit.Number.Literal
import QuantumCircuit.Number.Rounding
import QuantumCircuit.Number.Shortest
import QuantumCircuit.Palette
import QuantumCircuit.Proofs.Angle.Fractions
import QuantumCircuit.Proofs.Angle.Grammar
import QuantumCircuit.Proofs.Angle.Lists
import QuantumCircuit.Proofs.Angle.RoundTrip
import QuantumCircuit.Proofs.AptNodes
import QuantumCircuit.Proofs.Arity
import QuantumCircuit.Proofs.Atomicity
import QuantumCircuit.Proofs.Column.Alike
import QuantumCircuit.Proofs.Column.Angles
import QuantumCircuit.Proofs.Column.Attachment
import QuantumCircuit.Proofs.Column.Change
import QuantumCircuit.Proofs.Column.Deletion
import QuantumCircuit.Proofs.Column.Detachment
import QuantumCircuit.Proofs.Column.Linked
import QuantumCircuit.Proofs.Column.Links
import QuantumCircuit.Proofs.Column.Marked
import QuantumCircuit.Proofs.Column.Moving
import QuantumCircuit.Proofs.Column.Obstructed
import QuantumCircuit.Proofs.Column.Placement
import QuantumCircuit.Proofs.Column.Search
import QuantumCircuit.Proofs.Column.Tidy
import QuantumCircuit.Proofs.Consistency
import QuantumCircuit.Proofs.Deletion
import QuantumCircuit.Proofs.FiniteAngles
import QuantumCircuit.Proofs.Frame
import QuantumCircuit.Proofs.History
import QuantumCircuit.Proofs.InBounds
import QuantumCircuit.Proofs.InPlace
import QuantumCircuit.Proofs.Independence
import QuantumCircuit.Proofs.Lasting
import QuantumCircuit.Proofs.Legibility
import QuantumCircuit.Proofs.Letters
import QuantumCircuit.Proofs.Linking
import QuantumCircuit.Proofs.LongPrograms
import QuantumCircuit.Proofs.Marks
import QuantumCircuit.Proofs.Modes
import QuantumCircuit.Proofs.Moving
import QuantumCircuit.Proofs.Number.Difference
import QuantumCircuit.Proofs.Number.Literals
import QuantumCircuit.Proofs.Number.Nearness
import QuantumCircuit.Proofs.Number.Numerals
import QuantumCircuit.Proofs.Number.ReadBack
import QuantumCircuit.Proofs.Number.Turn
import QuantumCircuit.Proofs.Obstructions
import QuantumCircuit.Proofs.PathIndependence
import QuantumCircuit.Proofs.ProgramLines
import QuantumCircuit.Proofs.Rotation
import QuantumCircuit.Proofs.Screen.Following
import QuantumCircuit.Proofs.Screen.LinkLines
import QuantumCircuit.Proofs.Screen.Widths
import QuantumCircuit.Proofs.Scrolling
import QuantumCircuit.Proofs.Search
import QuantumCircuit.Proofs.SecondControl
import QuantumCircuit.Proofs.Session.Prompt
import QuantumCircuit.Proofs.Session.Turns
import QuantumCircuit.Proofs.SoundNodes
import QuantumCircuit.Proofs.StrayMarks
import QuantumCircuit.Proofs.Swapping
import QuantumCircuit.Proofs.Table.Agreement
import QuantumCircuit.Proofs.Table.Basic
import QuantumCircuit.Proofs.Table.Commands
import QuantumCircuit.Proofs.Table.Finds
import QuantumCircuit.Proofs.Table.Gestures
import QuantumCircuit.Proofs.Table.Local
import QuantumCircuit.Proofs.Table.OfCircuit
import QuantumCircuit.Proofs.Table.Operations
import QuantumCircuit.Proofs.Text.Lowercase
import QuantumCircuit.Proofs.Toggling
import QuantumCircuit.Proofs.Turning
import QuantumCircuit.Screen
import QuantumCircuit.Screen.CircuitView
import QuantumCircuit.Screen.Layer
import QuantumCircuit.Session
import QuantumCircuit.Session.Folder
import QuantumCircuit.Session.Key
import QuantumCircuit.Session.Terminal
import QuantumCircuit.Settings
import QuantumCircuit.Text.Blank

import QuantumCircuit.Proofs.Column.Search
import QuantumCircuit.Proofs.History

/-!
# The row that a gesture finds

* `nearest_row_linked` : in an edited circuit a second control and a swap partner go to the free row
  that is nearest to the gate, and a first control to the free row next to it; of two such rows it
  is the upper one.  The gesture is refused only if there is no such row, and then nothing changes.

So a free row is never passed over: whatever else stands in the column, a row that shows nothing or
a passing wire takes the link (`Column.Tidy.attach_eq`).
-/

namespace QuantumCircuit

namespace Link

variable {x : Node}

/-- An X that is not rotated and has a first control takes a second one in any row. -/
theorem allows_secondControl (hs : x.symbol = .x) (hrotated : x.isRotated = false)
    (hcontrol : x.control.isSome = true) (row : Nat) : secondControl.Allows x row := by
  show Kind.of x.symbol x.isRotated x.control.isSome true = .toffoli
  rw [hs, hrotated, hcontrol]
  rfl

/-- A gate without controls takes one if its kind has a controlled form. -/
theorem allows_control (hcontrols : x.controls = []) (hkind : x.kind.controlled?.isSome = true)
    (row : Nat) : control.Allows x row := by
  obtain ⟨hfirst, hsecond⟩ := Node.controls_eq_nil_iff.1 hcontrols
  show (Kind.of x.symbol x.isRotated true x.secondControl.isSome).isControlled = true
  rw [Node.kind, hfirst, hsecond] at hkind
  rw [hsecond]
  revert hkind
  cases x.symbol <;> cases x.isRotated <;> decide

end Link

namespace Editor

variable {n d : Nat} {e : Editor n d} {command : Command}

/-- The command links the gate in its cell to a row, and tells `told`. -/
def LinksTo (e : Editor n d) (command : Command) (l : Link) (row : Nat) (told : Option Nat) :
    Prop :=
  ∃ circuit, e.perform command = ({ e with circuit, status := "" }, .ok told) ∧
    (e.circuit.column command.cell.col).Attached l command.cell.row row
      (circuit.column command.cell.col) ∧
    ∀ col, col ≠ command.cell.col → circuit.column col = e.circuit.column col

/-- The command is refused, and only the status line changes. -/
def Refuses (e : Editor n d) (command : Command) (fault : EditError Cell) : Prop :=
  e.perform command = ({ e with status := fault.message }, .error fault)

/-- A command is refused for one reason. -/
theorem Refuses.unique {fault fault' : EditError Cell} (h : e.Refuses command fault)
    (h' : e.Refuses command fault') : fault = fault' := by
  rw [Refuses, h] at h'
  exact Except.error.inj (Prod.mk.inj h').2

section

variable {change : Column n → Except (EditError Nat) (Column n × Option Nat)}
  (hcol : command.cell.col < d)
  (hedit : attempt e.circuit command = e.circuit.edit command.cell change)

include hcol hedit

theorem refuses_of_edit {fault : EditError Nat}
    (herror : change (e.circuit.column command.cell.col) = .error fault) :
    e.Refuses command (fault.map (⟨·, command.cell.col⟩)) := by
  rw [Refuses, perform, hedit, Circuit.edit_of_error hcol herror]

/-- A command that makes a link which can be made links the gate. -/
theorem linksTo_of_edit (h : e.circuit.EditReachable) {l : Link} {row : Nat} {told : Option Nat}
    (ha : (e.circuit.column command.cell.col).Attachable l command.cell.row row)
    (hok : change (e.circuit.column command.cell.col) =
      .ok ((e.circuit.column command.cell.col).withLink l command.cell.row row, told)) :
    e.LinksTo command l row told := by
  have hattempt := hedit.trans (Circuit.edit_eq_ok_iff.2 ⟨hcol, _, hok, rfl⟩)
  refine ⟨_, by rw [perform, hattempt], ?_, fun col hne => ?_⟩
  · rw [Circuit.column_withColumn hcol, if_pos rfl]
    exact ha.attached (h.tidy command.cell.col)
  · rw [Circuit.column_withColumn hcol, if_neg hne]

end

/-- A command that tells no row is refused for what its change of the column is refused for. -/
theorem refuses_iff_of_silent {change : Column n → Except (EditError Nat) (Column n)}
    (hcol : command.cell.col < d)
    (hedit : attempt e.circuit command =
      e.circuit.edit command.cell fun column => silently (change column))
    {fault : EditError Cell} :
    e.Refuses command fault ↔ ∃ cause, change (e.circuit.column command.cell.col) = .error cause ∧
      cause.map (⟨·, command.cell.col⟩) = fault := by
  constructor
  · intro h
    cases hchange : change (e.circuit.column command.cell.col) with
    | error cause =>
      have hcause := refuses_of_edit hcol hedit (congrArg silently hchange)
      exact ⟨cause, rfl, hcause.unique h⟩
    | ok column =>
      have hok := hedit.trans
        (Circuit.edit_eq_ok_iff.2 ⟨hcol, column, congrArg silently hchange, rfl⟩)
      rw [Refuses, perform, hok] at h
      cases (Prod.mk.inj h).2
  · rintro ⟨cause, herror, rfl⟩
    exact refuses_of_edit hcol hedit (congrArg silently herror)

/-- The row that a gesture links in an edited circuit.  An X that is not rotated and has a first
control is given a second one in the nearest free row, which is told, and a swap without a partner
is linked to that row; a gate without controls whose kind can be controlled is given one in the row
above if that is free, and else in the row below.  If there is no such row the gesture is refused
and the circuit stays. -/
theorem nearest_row_linked (h : e.circuit.EditReachable) {cell : Cell}
    (hcell : e.circuit.contains cell = true) :
    ((e.circuit.node cell).symbol = .x → (e.circuit.node cell).isRotated = false →
      (e.circuit.node cell).control.isSome = true →
      (∃ row, (e.circuit.column cell.col).NearestFreeRow cell.row row ∧
        e.LinksTo (.addSecondControl cell) .secondControl row (some row)) ∨
      (∀ row, ¬ (e.circuit.column cell.col).FreeRow cell.row row) ∧
        e.Refuses (.addSecondControl cell) (.blocked cell)) ∧
    ((e.circuit.node cell).symbol = .swap → (e.circuit.node cell).partner = none →
      (∃ row, (e.circuit.column cell.col).NearestFreeRow cell.row row ∧
        e.LinksTo (.toggleSwap cell) .partner row none) ∨
      (∀ row, ¬ (e.circuit.column cell.col).FreeRow cell.row row) ∧
        e.Refuses (.toggleSwap cell) (.occupied cell .swap)) ∧
    ((e.circuit.node cell).controls = [] →
      (e.circuit.node cell).kind.controlled?.isSome = true →
      (∃ row, (e.circuit.column cell.col).FreeNeighbour cell.row row ∧
        e.LinksTo (.toggleControl cell) .control row none) ∨
      (∀ row, ¬ (e.circuit.column cell.col).FreeNeighbour cell.row row) ∧
        ∃ fault, e.Refuses (.toggleControl cell) fault) := by
  obtain ⟨hrow, hcol⟩ := Circuit.contains_iff.1 hcell
  have htidy := h.tidy cell.col
  refine ⟨fun hs hrotated hcontrol => ?_, fun hs hpartner => ?_, fun hcontrols hkind => ?_⟩
  · have hedit : attempt e.circuit (.addSecondControl cell) = e.circuit.edit cell fun column =>
        (column.addSecondControl cell.row).map fun found => (found.1, some found.2) := rfl
    have hallows := Link.allows_secondControl hs hrotated hcontrol
    rcases htidy.addSecondControl_cases hrow hallows with ⟨row, hnearest, hok⟩ | ⟨hno, herror⟩
    · exact .inl ⟨row, hnearest, linksTo_of_edit hcol hedit h
        (hnearest.attachable hrow (hallows row)) (congrArg (Except.map _) hok)⟩
    · have hrefused := refuses_of_edit hcol hedit (congrArg (Except.map _) herror)
      exact .inr ⟨hno, hrefused⟩
  · have hedit : attempt e.circuit (.toggleSwap cell) = e.circuit.edit cell fun column =>
        silently (column.toggleSwap cell.row) := rfl
    rcases htidy.toggleSwap_cases hrow hs hpartner with ⟨row, hnearest, hok⟩ | ⟨hno, herror⟩
    · exact .inl ⟨row, hnearest, linksTo_of_edit hcol hedit h
        (hnearest.attachable hrow hs) (congrArg silently hok)⟩
    · have hrefused := refuses_of_edit hcol hedit (congrArg silently herror)
      exact .inr ⟨hno, hrefused⟩
  · have hedit : attempt e.circuit (.toggleControl cell) = e.circuit.edit cell fun column =>
        silently (column.toggleControl cell.row) := rfl
    have hallows := Link.allows_control hcontrols hkind
    rcases htidy.toggleControl_cases hrow hcontrols hallows with
      ⟨row, hnext, hok⟩ | ⟨hno, fault, herror⟩
    · exact .inl ⟨row, hnext, linksTo_of_edit hcol hedit h
        (hnext.attachable hrow (hallows row)) (congrArg silently hok)⟩
    · exact .inr ⟨hno, _, refuses_of_edit hcol hedit (congrArg silently herror)⟩

/-- In column 0 an X in row 2, controlled from row 1, above a Hadamard gate.  In column 1 a swap, a
Hadamard gate and a Z, from the top downwards. -/
def flanked : Circuit 5 2 :=
  (((((Circuit.blank.after (.command (.place ⟨2, 0⟩ (.plain .x) []))).after
    (.command (.toggleControl ⟨2, 0⟩))).after
    (.command (.place ⟨3, 0⟩ (.plain .hadamard) []))).after
    (.command (.place ⟨0, 1⟩ .swap []))).after
    (.command (.place ⟨1, 1⟩ (.plain .hadamard) []))).after
    (.command (.place ⟨2, 1⟩ (.plain .z) []))

/-- An editor of that circuit. -/
def flanker : Editor 5 2 := ⟨flanked, ⟨0, 0⟩, .pi, ""⟩

/-- Rows 0 and 4 are equally near to the X, and the upper one is linked.  The swap is linked over the
two gates to row 3, and the Z is controlled from the row below it. -/
theorem nearest_row_linked_flanked :
    flanker.circuit.EditReachable ∧ flanker.circuit.contains ⟨2, 0⟩ = true ∧
      flanker.circuit.contains ⟨0, 1⟩ = true ∧ flanker.circuit.contains ⟨2, 1⟩ = true ∧
      (flanker.circuit.node ⟨2, 0⟩).symbol = .x ∧
      (flanker.circuit.node ⟨2, 0⟩).isRotated = false ∧
      (flanker.circuit.node ⟨2, 0⟩).control.isSome = true ∧
      (flanker.circuit.node ⟨0, 1⟩).symbol = .swap ∧
      (flanker.circuit.node ⟨0, 1⟩).partner = none ∧
      (flanker.circuit.node ⟨2, 1⟩).controls = [] ∧
      (flanker.circuit.node ⟨2, 1⟩).kind.controlled?.isSome = true ∧
      (flanker.circuit.column 0).FreeRow 2 4 ∧
      flanker.LinksTo (.addSecondControl ⟨2, 0⟩) .secondControl 0 (some 0) ∧
      flanker.LinksTo (.toggleSwap ⟨0, 1⟩) .partner 3 none ∧
      flanker.LinksTo (.toggleControl ⟨2, 1⟩) .control 3 none := by
  have hreach : flanker.circuit.EditReachable := by
    dsimp only [flanker]
    exact (((((Circuit.EditReachable.blank.after _ rfl).after _ rfl).after _ rfl).after _ rfl).after
      _ rfl).after _ rfl
  have hx : flanker.circuit.contains ⟨2, 0⟩ = true := rfl
  have hswap : flanker.circuit.contains ⟨0, 1⟩ = true := rfl
  have hz : flanker.circuit.contains ⟨2, 1⟩ = true := rfl
  have hsymbol : (flanker.circuit.node ⟨2, 0⟩).symbol = .x := by decide +kernel
  have hrotated : (flanker.circuit.node ⟨2, 0⟩).isRotated = false := by decide +kernel
  have hcontrol : (flanker.circuit.node ⟨2, 0⟩).control.isSome = true := by decide +kernel
  have hsymbol' : (flanker.circuit.node ⟨0, 1⟩).symbol = .swap := by decide +kernel
  have hpartner : (flanker.circuit.node ⟨0, 1⟩).partner = none := by decide +kernel
  have hcontrols : (flanker.circuit.node ⟨2, 1⟩).controls = [] := by decide +kernel
  have hkind : (flanker.circuit.node ⟨2, 1⟩).kind.controlled?.isSome = true := by decide +kernel
  have hnearest : (flanker.circuit.column 0).NearestFreeRow 2 0 := by decide +kernel
  have hnearest' : (flanker.circuit.column 1).NearestFreeRow 0 3 := by decide +kernel
  have hbelow : (flanker.circuit.column 0).FreeRow 2 4 := by decide +kernel
  have habove : ¬ (flanker.circuit.column 1).FreeRow 2 1 := by decide +kernel
  have hbelow' : (flanker.circuit.column 1).FreeRow 2 3 := by decide +kernel
  refine ⟨hreach, hx, hswap, hz, hsymbol, hrotated, hcontrol, hsymbol', hpartner, hcontrols, hkind,
    hbelow, ?_, ?_, ?_⟩
  · rcases (nearest_row_linked hreach hx).1 hsymbol hrotated hcontrol with
      ⟨row, hrow, hlinks⟩ | ⟨hno, -⟩
    · rwa [hnearest.unique hrow] at hlinks
    · exact absurd hnearest.toFreeRow (hno 0)
  · rcases (nearest_row_linked hreach hswap).2.1 hsymbol' hpartner with
      ⟨row, hrow, hlinks⟩ | ⟨hno, -⟩
    · rwa [hnearest'.unique hrow] at hlinks
    · exact absurd hnearest'.toFreeRow (hno 3)
  · rcases (nearest_row_linked hreach hz).2.2 hcontrols hkind with
      ⟨row, hrow, hlinks⟩ | ⟨hno, -⟩
    · obtain rfl : row = 3 := by
        rcases hrow.neighbour with hup | ⟨hdown, -⟩
        · obtain rfl : row = 1 := by simpa using hup
          exact absurd hrow.toFreeRow habove
        · exact hdown.symm
      exact hlinks
    · refine absurd ⟨hbelow', .inr ⟨rfl, fun r hr => ?_⟩⟩ (hno 3)
      obtain rfl : r = 1 := by simpa using hr
      exact habove

end Editor

end QuantumCircuit

import QuantumCircuit.Proofs.Consistency

/-!
# The lines of a program

`GateLine n row x line operands` says that `line` is a well-formed line for the gate `x` in `row`
of `n` wires, and that it acts on `operands`.

* `program_lines` : the program of an edited circuit is the preamble followed by one line for each
  cell that holds a gate, columns from left to right and rows from top to bottom; every line is
  well formed, and no two lines of one column act on the same row.

The number of operands follows from the kind of the gate, because the controls of every gate act
on it (`Column.Linked`) and only swaps have partners (`Node.Proper`).
-/

namespace QuantumCircuit

namespace Instruction

/-- The names of the gates that take angles. -/
def turnedNames : List String := ["rx", "ry", "rz", "crz"]

/-- How many controls a gate has, by its name. -/
def controlCount (name : String) : Nat :=
  if name ∈ ["cx", "cy", "cz", "ch", "cswap", "crz"] then 1
  else if name = "ccx" then 2
  else 0

/-- The rows that an instruction acts on. -/
def operands : Instruction → List Nat
  | gate _ _ operands => operands
  | measure row => [row]

end Instruction

open Instruction

/-- A well-formed line for the gate `x` in a row of `n` wires, and the rows that it acts on: a
measurement of the row, or a name, angles if the name takes any, and the operands. -/
inductive GateLine (n row : Nat) (x : Node) : String → List Nat → Prop
  | measure (hkind : x.kind = .plain .measure) (hrow : row < n) :
      GateLine n row x s!"measure q[{row}] -> c[{row}];" [row]
  | gate {name params : String} {operands : List Nat} (hkind : x.kind ≠ .plain .measure)
      (hname : x.kind.instructionName? = some name)
      (hparams : name ∉ turnedNames ∧ params = "" ∨ name ∈ turnedNames ∧
        ∃ angles : List Binary64, angles ≠ [] ∧
          params = "(" ++ ",".intercalate (angles.map toString) ++ ")")
      (hnodup : operands.Nodup) (hlt : ∀ q ∈ operands, q < n)
      (hlast : operands.getLast? = some row)
      (hlength : operands.length = 1 + controlCount name + if x.partner.isSome then 1 else 0)
      (hpartner : x.partner.isSome = true → name = "swap" ∨ name = "cswap") :
      GateLine n row x
        (name ++ params ++ " " ++ ",".intercalate (operands.map fun q => s!"q[{q}]") ++ ";")
        operands

/-! ### Names -/

theorem Angle.isNeutral_pi : Angle.isNeutral .pi = true := by decide +kernel

theorem Kind.instructionName?_eq_none_iff {k : Kind} :
    k.instructionName? = none ↔ k.isNull = true := by
  cases k with
  | plain s => cases s <;> simp [instructionName?, isNull, Symbol.isNull]
  | rotated a => cases a <;> simp [instructionName?, isNull]
  | controlled t => cases t <;> simp [instructionName?, isNull]
  | toffoli => simp [instructionName?, isNull]

/-- The name of a kind whose controls act says whether it is turned and how many controls there
are. -/
theorem Kind.name_of {s : Symbol} {r c e : Bool} {name : String}
    (hname : (Kind.of s r c e).instructionName? = some name)
    (hcontrols : c = true ∨ e = true → (Kind.of s r c e).isControlled = true)
    (hsecond : e = true → Kind.of s r c e = .toffoli) :
    (name ∈ turnedNames ↔ r = true ∧ s.isRotatable = true) ∧
      controlCount name = c.toNat + e.toNat := by
  cases c <;> cases e <;> cases r <;> cases s <;>
    simp_all [of, Symbol.axis?, rotated?, controlled?, target?, isControlled, instructionName?,
      Symbol.isRotatable] <;> subst hname <;> decide

namespace Node

variable {x : Node}

theorem isSome_or_isSome_iff :
    x.control.isSome = true ∨ x.secondControl.isSome = true ↔ x.controls ≠ [] := by
  cases hc : x.control <;> cases he : x.secondControl <;> simp [controls, hc, he]

theorem name_of_controlsAct (hact : x.controlsAct = true) {name : String}
    (hname : x.kind.instructionName? = some name) :
    (name ∈ turnedNames ↔ x.isRotated = true ∧ x.symbol.isRotatable = true) ∧
      controlCount name = x.controls.length := by
  obtain ⟨hcontrols, hsecond⟩ := Bool.and_eq_true_iff.1 hact
  have hlength : x.controls.length = x.control.isSome.toNat + x.secondControl.isSome.toNat := by
    cases hc : x.control <;> cases he : x.secondControl <;> simp [controls, hc, he]
  rw [hlength]
  refine Kind.name_of hname (fun h => ?_) (fun h => ?_)
  · change x.kind.isControlled = true
    have hne := isSome_or_isSome_iff.1 h
    simpa [hne] using hcontrols
  · change x.kind = .toffoli
    rw [← Option.not_isNone, Bool.not_eq_true'] at h
    simpa [h] using hsecond

/-- A gate that does not turn about an axis is never rotated. -/
theorem Proper.isRotatable (hx : x.Proper) (hr : x.isRotated = true) :
    x.symbol.isRotatable = true := by
  by_contra hs
  rw [isRotated, hx.theta_eq_pi (by simpa using hs), Angle.isNeutral_pi] at hr
  cases hr

theorem angles_ne_nil_iff : x.angles ≠ [] ↔ x.isRotated = true := by
  unfold angles
  split <;> simp_all

theorem Proper.name_of_partner (hx : x.Proper) {name : String}
    (hname : x.kind.instructionName? = some name) (hp : x.partner.isSome = true) :
    name = "swap" ∨ name = "cswap" := by
  have hs := hx.symbol_of_partner hp
  have hkind : x.kind = Kind.of .swap x.isRotated x.control.isSome x.secondControl.isSome := by
    rw [kind, hs]
  rw [hkind] at hname
  generalize x.isRotated = r, x.control.isSome = c, x.secondControl.isSome = e at hname
  cases r <;> cases c <;> cases e <;>
    simp_all [Kind.of, Kind.rotated?, Symbol.axis?, Kind.controlled?, Kind.target?,
      Kind.instructionName?]

theorem isSome_instruction?_iff : x.instruction?.isSome = true ↔ x.kind.isNull = false := by
  unfold instruction?
  split
  · rename_i h
    rw [beq_iff_eq.1 h]
    simp [Kind.isNull, Symbol.isNull]
  · rw [Option.isSome_map, ← Bool.not_eq_true, ← Kind.instructionName?_eq_none_iff,
      Option.isSome_iff_ne_none]

/-- The line of a gate with sound links is well formed. -/
theorem gateLine {n : Nat} (hact : x.controlsAct = true) (hproper : x.Proper) (hrow : x.row < n)
    (hlinks : ∀ link ∈ x.links, link < n ∧ link ≠ x.row) (hnodup : x.links.Nodup)
    (hgate : x.kind.isNull = false) :
    GateLine n x.row x ((x.instruction?.map toText).getD "")
      ((x.instruction?.map Instruction.operands).getD []) := by
  obtain ⟨i, hi⟩ := Option.isSome_iff_exists.1 (isSome_instruction?_iff.2 hgate)
  rw [hi]
  unfold instruction? at hi
  split at hi
  · rename_i hkind
    cases hi
    exact .measure (beq_iff_eq.1 hkind) hrow
  · rename_i hkind
    obtain ⟨name, hname, rfl⟩ := Option.map_eq_some_iff.1 hi
    obtain ⟨hturned, hcount⟩ := name_of_controlsAct hact hname
    have hangles : name ∈ turnedNames ↔ x.angles ≠ [] := by
      rw [hturned, angles_ne_nil_iff]
      exact ⟨And.left, fun hr => ⟨hr, hproper.isRotatable hr⟩⟩
    -- The angles are written down exactly if there are any, that is for a rotated gate.
    have hparams : name ∉ turnedNames ∧ anglesText x.angles = "" ∨ name ∈ turnedNames ∧
        ∃ angles : List Binary64, angles ≠ [] ∧
          anglesText x.angles = "(" ++ ",".intercalate (angles.map toString) ++ ")" := by
      by_cases hname : name ∈ turnedNames
      · have hne := hangles.1 hname
        exact .inr ⟨hname, x.angles, hne, by rw [anglesText, if_neg (by simpa using hne)]⟩
      · have hnil : x.angles = [] := by_contra fun hne => hname (hangles.2 hne)
        exact .inl ⟨hname, by rw [anglesText, hnil, List.isEmpty_nil, if_pos rfl]⟩
    refine .gate (by simpa using hkind) hname hparams ?_ ?_ (by simp) ?_
      (hproper.name_of_partner hname)
    · rw [List.nodup_append]
      refine ⟨hnodup, by simp, fun l hl q hq => ?_⟩
      rw [List.mem_singleton.1 hq]
      exact (hlinks l hl).2
    · intro q hq
      rcases List.mem_append.1 hq with hl | hl
      · exact (hlinks q hl).1
      · rwa [List.mem_singleton.1 hl]
    · change _ = 1 + controlCount name + _
      rw [hcount]
      cases hp : x.partner <;> simp [links, hp] <;> omega

end Node

namespace Circuit

variable {n d : Nat} {c : Circuit n d}

/-- The cells that hold a gate, columns from left to right and rows from top to bottom. -/
def gateCells (c : Circuit n d) : List Cell :=
  (List.range d).flatMap fun col =>
    ((List.range n).map fun row => ⟨row, col⟩).filter fun cell =>
      (c.node cell).kind ∉ [.empty, .control, .trace]

/-- The line of the gate in a cell. -/
def line (c : Circuit n d) (cell : Cell) : String :=
  ((c.node cell).instruction?.map toText).getD ""

/-- The rows that the gate in a cell acts on. -/
def operandsAt (c : Circuit n d) (cell : Cell) : List Nat :=
  ((c.node cell).instruction?.map Instruction.operands).getD []

theorem isNull_iff_mem {k : Kind} : k.isNull = true ↔ k ∈ [Kind.empty, .control, .trace] := by
  cases k with
  | plain s => cases s <;> decide
  | _ => simp [Kind.isNull]

theorem mem_gateCells {cell : Cell} :
    cell ∈ c.gateCells ↔
      cell.col < d ∧ cell.row < n ∧ (c.node cell).kind.isNull = false := by
  simp only [gateCells, List.mem_flatMap, List.mem_range, List.mem_filter, List.mem_map,
    decide_eq_true_eq, ← isNull_iff_mem, Bool.not_eq_true]
  constructor
  · rintro ⟨col, hcol, ⟨row, hrow, rfl⟩, hkind⟩
    exact ⟨hcol, hrow, hkind⟩
  · rintro ⟨hcol, hrow, hkind⟩
    exact ⟨cell.col, hcol, ⟨cell.row, hrow, rfl⟩, hkind⟩

theorem toList_columns (c : Circuit n d) :
    c.columns.toList = (List.range d).map c.column := by
  refine List.ext_getElem (by simp) fun i hi _ => ?_
  have hlt : i < d := by simpa using hi
  simp [column, hlt]

end Circuit

theorem Column.toList_cells {n : Nat} (c : Column n) :
    c.cells.toList = (List.range n).map c.node := by
  refine List.ext_getElem (by simp) fun i hi _ => ?_
  have hlt : i < n := by simpa using hi
  simp [node, hlt]

namespace Circuit

variable {n d : Nat} {c : Circuit n d}

/-- All cells of the circuit, columns from left to right and rows from top to bottom. -/
def cells (_ : Circuit n d) : List Cell :=
  (List.range d).flatMap fun col => (List.range n).map fun row => ⟨row, col⟩

/-- The line of a cell in the program, if the cell holds a gate. -/
def lineAt (c : Circuit n d) (cell : Cell) : Option String :=
  (c.node cell).instruction?.map toText

theorem programLines_eq (c : Circuit n d) :
    c.programLines = preamble n ++ c.cells.filterMap c.lineAt := by
  rw [programLines, instructions, toList_columns, List.flatMap_map, List.map_flatMap, cells,
    List.filterMap_flatMap]
  congr 2
  funext col
  rw [Column.toList_cells, List.filterMap_map, List.map_filterMap, List.filterMap_map]
  rfl

/-- A cell has a line exactly if it holds a gate. -/
theorem lineAt_eq (c : Circuit n d) (cell : Cell) :
    c.lineAt cell = if (c.node cell).kind ∉ [Kind.empty, .control, .trace] then some (c.line cell)
      else none := by
  have hgate : (c.node cell).kind ∉ [Kind.empty, .control, .trace] ↔
      (c.node cell).instruction?.isSome = true := by
    rw [← isNull_iff_mem, Bool.not_eq_true, Node.isSome_instruction?_iff]
  simp only [hgate, lineAt, line]
  cases (c.node cell).instruction? <;> rfl

/-- Every gate of a circuit has one line in the program. -/
theorem filterMap_lineAt (c : Circuit n d) :
    c.cells.filterMap c.lineAt = c.gateCells.map c.line := by
  have hcells : c.gateCells = c.cells.filter fun cell =>
      (c.node cell).kind ∉ [Kind.empty, .control, .trace] := by
    rw [gateCells, cells, List.filter_flatMap]
  rw [hcells, ← List.filterMap_eq_map, List.filterMap_filter]
  refine congrArg (List.filterMap · _) (funext fun cell => ?_)
  simp only [lineAt_eq, decide_eq_true_eq, Function.comp_apply]

theorem mem_operandsAt {cell : Cell} {q : Nat} (hq : q ∈ c.operandsAt cell) :
    q ∈ (c.node cell).links ∨ q = (c.node cell).row := by
  unfold operandsAt Node.instruction? at hq
  split at hq
  · exact .inr (by simpa [Instruction.operands] using hq)
  · cases hname : (c.node cell).kind.instructionName? with
    | none => simp [hname] at hq
    | some name => simpa [hname, Instruction.operands] using hq

/-- The program of an edited circuit is the preamble and one well-formed line for each gate, and
the lines of one column act on different rows. -/
theorem program_lines (h : c.EditReachable) :
    c.program = String.join ((["OPENQASM 2.0;", "include \"qelib1.inc\";", s!"qreg q[{n}];",
      s!"creg c[{n}];", "id q;"] ++ c.gateCells.map c.line).map (· ++ "\n")) ∧
    (∀ cell ∈ c.gateCells,
      GateLine n cell.row (c.node cell) (c.line cell) (c.operandsAt cell)) ∧
    (∀ cell ∈ c.gateCells, ∀ other ∈ c.gateCells, cell.col = other.col → cell ≠ other →
      ∀ q ∈ c.operandsAt cell, q ∉ c.operandsAt other) := by
  refine ⟨?_, fun cell hcell => ?_, fun cell hcell other hother hcol hne q hq hq' => ?_⟩
  · rw [program, programLines_eq, filterMap_lineAt, preamble]
  · obtain ⟨-, hrow, hgate⟩ := mem_gateCells.1 hcell
    have htidy := h.tidy cell.col
    have hr : (c.node cell).row = cell.row := htidy.row_node cell.row
    have hline := Node.gateLine (x := c.node cell) (n := n) (htidy.controlsAct cell.row)
      (htidy.proper cell.row) (by rwa [hr])
      (fun link hl => ⟨htidy.lt_of_mem hl, by rw [hr]; exact htidy.ne_of_mem hl⟩)
      (htidy.nodup_links cell.row) hgate
    rwa [hr] at hline
  · obtain ⟨row, col⟩ := cell
    obtain ⟨row', col'⟩ := other
    obtain rfl : col = col' := hcol
    have htidy := h.tidy col
    have hrow : row ≠ row' := fun heq => hne (by rw [heq])
    have hr : ∀ r, (c.node ⟨r, col⟩).row = r := htidy.row_node
    -- Nobody is linked to the row of a gate, so a shared operand is a link of both gates or the
    -- row of both.
    have hunlinked : ∀ {r s}, (c.node ⟨r, col⟩).kind.isNull = false →
        r ∉ (c.node ⟨s, col⟩).links := by
      intro r s hgate hl
      have hnull : (c.node ⟨r, col⟩).symbol.isNull = true := htidy.isNull_of_mem hl
      rw [(Node.kind_eq_plain_iff hnull).2 rfl] at hgate
      exact absurd hnull (by simpa [Kind.isNull] using hgate)
    have hgate := (mem_gateCells.1 hcell).2.2
    have hgate' := (mem_gateCells.1 hother).2.2
    rcases mem_operandsAt hq with hl | heq <;> rcases mem_operandsAt hq' with hl' | heq'
    · exact hrow (htidy.owner_eq hl hl')
    · rw [heq', hr] at hl
      exact hunlinked hgate' hl
    · rw [heq, hr] at hl'
      exact hunlinked hgate hl'
    · exact hrow (by rw [← hr row, ← hr row', ← heq, ← heq'])

/-- Two columns of three wires.  In the first one a rotation with three angles stands beside a
controlled one, and in the second one a rotation stands over a measurement. -/
def slanted : Circuit 3 2 :=
  ((((blank.after (.command (.placeText ⟨0, 0⟩ (.plain .x) "0.5, 1, 2"))).after
    (.command (.placeText ⟨2, 0⟩ (.plain .z) "pi/4"))).after
    (.command (.toggleControl ⟨2, 0⟩))).after
    (.command (.placeText ⟨0, 1⟩ (.plain .y) "2.5"))).after
    (.command (.toggleGate ⟨1, 1⟩ (.plain .measure)))

theorem editReachable_slanted : slanted.EditReachable :=
  ((((EditReachable.blank.after _ rfl).after _ rfl).after _ rfl).after _ rfl).after _ rfl

/-- A line with two controls, and a program whose lines have one angle, three, or none. -/
theorem program_lines_stretched :
    stretched.EditReachable ∧ stretched.gateCells = [⟨2, 0⟩] ∧
      stretched.line ⟨2, 0⟩ = "ccx q[0],q[4],q[2];" ∧
      GateLine 5 2 (stretched.node ⟨2, 0⟩) (stretched.line ⟨2, 0⟩) (stretched.operandsAt ⟨2, 0⟩) ∧
      stretched.program = String.join (["OPENQASM 2.0;", "include \"qelib1.inc\";", "qreg q[5];",
        "creg c[5];", "id q;", "ccx q[0],q[4],q[2];"].map (· ++ "\n")) ∧
      slanted.EditReachable ∧ slanted.gateCells = [⟨0, 0⟩, ⟨2, 0⟩, ⟨0, 1⟩, ⟨1, 1⟩] ∧
      (∀ cell ∈ slanted.gateCells,
        GateLine 3 cell.row (slanted.node cell) (slanted.line cell) (slanted.operandsAt cell)) ∧
      slanted.operandsAt ⟨2, 0⟩ = [1, 2] ∧
      (∀ q ∈ slanted.operandsAt ⟨2, 0⟩, q ∉ slanted.operandsAt ⟨0, 0⟩) ∧
      slanted.program = String.join (["OPENQASM 2.0;", "include \"qelib1.inc\";", "qreg q[3];",
        "creg c[3];", "id q;", "rx(0.5,1,2) q[0];",
        "crz(0.7853981633974483) q[1],q[2];", "ry(2.5) q[0];",
        "measure q[1] -> c[1];"].map (· ++ "\n")) := by
  have h := program_lines editReachable_stretched
  have hcells : stretched.gateCells = [⟨2, 0⟩] := by decide +kernel
  have hline : stretched.line ⟨2, 0⟩ = "ccx q[0],q[4],q[2];" := by decide +kernel
  have h' := program_lines editReachable_slanted
  have hcells' : slanted.gateCells = [⟨0, 0⟩, ⟨2, 0⟩, ⟨0, 1⟩, ⟨1, 1⟩] := by decide +kernel
  have hlines' : slanted.gateCells.map slanted.line =
      ["rx(0.5,1,2) q[0];", "crz(0.7853981633974483) q[1],q[2];",
        "ry(2.5) q[0];", "measure q[1] -> c[1];"] := by decide +kernel
  refine ⟨editReachable_stretched, hcells, hline, h.2.1 ⟨2, 0⟩ (by simp [hcells]), ?_,
    editReachable_slanted, hcells', h'.2.1, by decide +kernel,
    h'.2.2 ⟨2, 0⟩ (by simp [hcells']) ⟨0, 0⟩ (by simp [hcells']) rfl (by decide), ?_⟩
  · rw [h.1, hcells, List.map_singleton, hline]
    rfl
  · rw [h'.1, hlines']
    rfl

end Circuit

end QuantumCircuit

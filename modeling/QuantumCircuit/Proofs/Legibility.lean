import Mathlib.Data.List.Nodup
import Mathlib.Tactic.SplitIfs
import QuantumCircuit.Proofs.AptNodes
import QuantumCircuit.Proofs.Letters
import QuantumCircuit.Proofs.Number.ReadBack
import QuantumCircuit.Proofs.SoundNodes

/-!
# What a line tells of its gate

The line of a gate is a name, angles in parentheses if there are any, and operands, of which
nothing says what they are: controls, a partner and the gate itself stand in one row, and swaps
may lack the partner.  In an edited circuit this is enough (`Node.Legible`).

* `Instruction.toText_injective` : different instructions have different lines, since the blank,
  the parenthesis and the commas occur nowhere else.
* `line_tells` : two gates of edited circuits with the same line are of one kind and have the same
  row, controls and partner, and the same angles unless both are neutral.

The kind says how many controls there are, so the operands fall into their places; and there is
never a third angle without a second, so the angles do too.
-/

namespace QuantumCircuit

-- The members of a list are checked one by one, whatever else is imported.
attribute [local instance (2000)] List.decidableBAll

/-! ### Separators -/

/-- Parts without the separator in them can be told apart when they are joined. -/
theorem Text.intercalate_comma_inj {parts parts' : List String} (hne : parts ≠ [])
    (hne' : parts' ≠ []) (hparts : ∀ part ∈ parts, ',' ∉ part.toList)
    (hparts' : ∀ part ∈ parts', ',' ∉ part.toList)
    (h : ",".intercalate parts = ",".intercalate parts') : parts = parts' := by
  have hsplit : ∀ {parts : List String}, parts ≠ [] → (∀ part ∈ parts, ',' ∉ part.toList) →
      (",".intercalate parts).toList.splitOn ',' = parts.map String.toList := by
    intro parts hne hparts
    rw [String.toList_intercalate]
    refine List.splitOn_intercalate ',' (fun part hpart => ?_) (by simpa using hne)
    obtain ⟨text, htext, rfl⟩ := List.mem_map.1 hpart
    exact hparts text htext
  have hlists := hsplit hne hparts
  rw [h, hsplit hne' hparts'] at hlists
  exact (List.map_inj_right fun _ _ => String.toList_inj.1).1 hlists.symm

/-- The characters that separate the parts of a line. -/
def Text.isSeparator (ch : Char) : Bool := ch == ' ' || ch == '(' || ch == ','

/-- There is no separator in the text of a number. -/
theorem Binary64.isSeparator_of_mem {x : Binary64} {ch : Char} (h : ch ∈ (toString x).toList) :
    Text.isSeparator ch = false := by
  cases x with
  | finite s m =>
    have hch := mem_toText_finite h
    rw [← Bool.not_eq_true]
    intro hsep
    simp only [Text.isSeparator, Bool.or_eq_true, beq_iff_eq] at hsep
    rcases hsep with (rfl | rfl) | rfl <;> exact absurd hch (by decide)
  | infinite s =>
    have hall : ∀ ch ∈ (toString (infinite s)).toList, Text.isSeparator ch = false := by
      cases s <;> decide
    exact hall ch h
  | nan =>
    have hall : ∀ ch ∈ (toString nan).toList, Text.isSeparator ch = false := by decide
    exact hall ch h

/-- Nor is there one in the name of an instruction, and no gate has the name of measurements. -/
theorem Kind.isSeparator_of_mem {k : Kind} {name : String} (hname : k.instructionName? = some name)
    {ch : Char} (h : ch ∈ name.toList) : Text.isSeparator ch = false := by
  have hall : ∀ ch ∈ name.toList, Text.isSeparator ch = false := by
    cases k with
    | plain s => cases s <;> cases hname <;> decide
    | rotated a => cases a <;> cases hname <;> decide
    | controlled t => cases t <;> cases hname <;> decide
    | toffoli => cases hname; decide
  exact hall ch h

/-- The kinds of gates. -/
def Kind.gates : List Kind :=
  [plain .identity, plain .x, plain .y, plain .z, plain .hadamard, plain .phase,
    plain .phaseDagger, plain .t, plain .tDagger, plain .swap, plain .measure, rotated .x,
    rotated .y, rotated .z, controlled .x, controlled .y, controlled .z, controlled .hadamard,
    controlled .swap, controlled .rotatedZ, toffoli]

theorem Kind.mem_gates {k : Kind} {name : String} (h : k.instructionName? = some name) :
    k ∈ gates := by
  cases k with
  | plain s => cases s <;> cases h <;> decide
  | rotated a => cases a <;> decide
  | controlled t => cases t <;> decide
  | toffoli => decide

theorem Kind.nodup_instructionName? : (gates.map instructionName?).Nodup := by decide +kernel

/-- The name of an instruction tells the kind. -/
theorem Kind.eq_of_instructionName? {k k' : Kind} {name : String}
    (h : k.instructionName? = some name) (h' : k'.instructionName? = some name) : k = k' :=
  List.inj_on_of_nodup_map nodup_instructionName? (mem_gates h) (mem_gates h') (h.trans h'.symm)

namespace Instruction

variable {name name' : String} {angles angles' : List Binary64} {operands operands' : List Nat}

theorem toList_operandText (row : Nat) :
    (operandText row).toList = 'q' :: '[' :: (Nat.toDigits 10 row ++ [']']) := by
  simp [operandText, Text.toString_string, Nat.toList_repr]

theorem operandText_injective : Function.Injective operandText := fun row row' h => by
  have hlists := congrArg String.toList h
  simp only [toList_operandText, List.cons.injEq, List.append_cancel_right_eq, true_and] at hlists
  rw [← Nat.ofDigitChars_ten_toDigits (n := row), hlists, Nat.ofDigitChars_ten_toDigits]

theorem comma_notMem_operandText (row : Nat) : ',' ∉ (operandText row).toList := by
  intro h
  rw [toList_operandText] at h
  simp only [List.mem_cons, List.mem_append, List.not_mem_nil, or_false] at h
  rcases h with h | h | h | h
  · cases h
  · cases h
  · exact absurd (Nat.isDigit_of_mem_toDigits (by decide) (by decide) h) (by decide)
  · cases h

theorem operandsText_inj (hne : operands ≠ []) (hne' : operands' ≠ [])
    (h : operandsText operands = operandsText operands') : operands = operands' := by
  have hcomma : ∀ {operands : List Nat}, ∀ part ∈ operands.map operandText,
      ',' ∉ part.toList := by
    intro operands part hpart
    obtain ⟨row, -, rfl⟩ := List.mem_map.1 hpart
    exact comma_notMem_operandText row
  have hparts := Text.intercalate_comma_inj (by simpa using hne) (by simpa using hne') hcomma
    hcomma h
  exact (List.map_inj_right fun _ _ heq => operandText_injective heq).1 hparts

theorem toList_anglesText (hne : angles ≠ []) :
    (anglesText angles).toList =
      '(' :: ((",".intercalate (angles.map toString)).toList ++ [')']) := by
  rw [anglesText, if_neg (by simpa using hne)]
  simp

theorem blank_notMem_anglesText (angles : List Binary64) : ' ' ∉ (anglesText angles).toList := by
  by_cases hne : angles = []
  · rw [hne]
    exact List.not_mem_nil
  · intro h
    rw [toList_anglesText hne, List.mem_cons, List.mem_append, String.toList_intercalate] at h
    rcases h with h | h | h
    · cases h
    · rcases Text.mem_intercalate h with hcomma | ⟨part, hpart, hblank⟩
      · exact absurd hcomma (by decide)
      · obtain ⟨text, htext, rfl⟩ := List.mem_map.1 hpart
        obtain ⟨a, -, rfl⟩ := List.mem_map.1 htext
        exact absurd (Binary64.isSeparator_of_mem hblank) (by decide)
    · exact absurd h (by decide)

theorem anglesText_inj (h : anglesText angles = anglesText angles') : angles = angles' := by
  have hlists := congrArg String.toList h
  have hnil : (anglesText []).toList = [] := rfl
  by_cases hne : angles = [] <;> by_cases hne' : angles' = []
  · rw [hne, hne']
  · rw [hne, hnil, toList_anglesText hne'] at hlists
    cases hlists
  · rw [hne', hnil, toList_anglesText hne] at hlists
    cases hlists
  · have hcomma : ∀ {angles : List Binary64}, ∀ part ∈ angles.map toString,
        ',' ∉ part.toList := by
      intro angles part hpart h
      obtain ⟨a, -, rfl⟩ := List.mem_map.1 hpart
      exact absurd (Binary64.isSeparator_of_mem h) (by decide)
    rw [toList_anglesText hne, toList_anglesText hne'] at hlists
    have hjoined := String.toList_inj.1 (List.append_cancel_right (List.cons.inj hlists).2)
    have hparts := Text.intercalate_comma_inj (by simpa using hne) (by simpa using hne') hcomma
      hcomma hjoined
    exact (List.map_inj_right fun _ _ heq => Binary64.toText_injective heq).1 hparts

/-- The name of the instruction is one word and not that of a measurement, and there are
operands. -/
def Wellformed : Instruction → Prop
  | gate name _ operands =>
    (∀ ch ∈ name.toList, Text.isSeparator ch = false) ∧ name ≠ "measure" ∧ operands ≠ []
  | measure _ => True

theorem toList_toText_gate (name : String) (angles : List Binary64) (operands : List Nat) :
    (gate name angles operands).toText.toList = name.toList ++
      ((anglesText angles).toList ++ ' ' :: ((operandsText operands).toList ++ [';'])) := by
  simp [toText, Text.toString_string]

theorem toList_toText_measure (row : Nat) :
    (measure row).toText.toList = "measure".toList ++
      ' ' :: 'q' :: '[' :: (Nat.toDigits 10 row ++
        ']' :: (" -> c[".toList ++ (Nat.toDigits 10 row ++ "];".toList))) := by
  have hbracket : "] -> c[".toList = ']' :: " -> c[".toList := rfl
  simp [toText, Text.toString_string, Nat.toList_repr, hbracket]

/-- A blank or a parenthesis follows the name. -/
theorem stops_anglesText (angles : List Binary64) (rest : List Char) :
    Text.Stops (fun ch => !Text.isSeparator ch) ((anglesText angles).toList ++ ' ' :: rest) := by
  by_cases hne : angles = []
  · rw [hne]
    exact Text.stops_cons.2 rfl
  · rw [toList_anglesText hne]
    exact Text.stops_cons.2 rfl

/-- Different instructions have different lines. -/
theorem toText_injective {i i' : Instruction} (hi : i.Wellformed) (hi' : i'.Wellformed)
    (h : i.toText = i'.toText) : i = i' := by
  have hlists := congrArg String.toList h
  have hname : ∀ {name : String}, (∀ ch ∈ name.toList, Text.isSeparator ch = false) →
      ∀ ch ∈ name.toList, (!Text.isSeparator ch) = true := fun hname ch hch => by
    rw [hname ch hch, Bool.not_false]
  have hmeasure : ∀ ch ∈ "measure".toList, (!Text.isSeparator ch) = true := by decide
  have hblank : ∀ {angles : List Binary64}, ∀ ch ∈ (anglesText angles).toList,
      (ch != ' ') = true := fun ch hch => bne_iff_ne.2 fun heq =>
    blank_notMem_anglesText _ (heq ▸ hch)
  cases i with
  | gate name angles operands =>
    obtain ⟨hword, hother, hne⟩ := hi
    cases i' with
    | gate name' angles' operands' =>
      obtain ⟨hword', -, hne'⟩ := hi'
      rw [toList_toText_gate, toList_toText_gate] at hlists
      obtain ⟨heq, hrest⟩ := Text.append_inj_of_stops (hname hword) (stops_anglesText _ _)
        (hname hword') (stops_anglesText _ _) hlists
      obtain ⟨hangles, hoperands⟩ := Text.append_inj_of_stops hblank (Text.stops_cons.2 rfl)
        hblank (Text.stops_cons.2 rfl) hrest
      rw [String.toList_inj.1 heq, anglesText_inj (String.toList_inj.1 hangles),
        operandsText_inj hne hne'
          (String.toList_inj.1 (List.append_cancel_right (List.cons.inj hoperands).2))]
    | measure row' =>
      rw [toList_toText_gate, toList_toText_measure] at hlists
      have heq := (Text.append_inj_of_stops (hname hword) (stops_anglesText _ _) hmeasure
        (Text.stops_cons.2 rfl) hlists).1
      exact absurd (String.toList_inj.1 heq) hother
  | measure row =>
    cases i' with
    | gate name' angles' operands' =>
      obtain ⟨hword', hother', -⟩ := hi'
      rw [toList_toText_gate, toList_toText_measure] at hlists
      have heq := (Text.append_inj_of_stops (hname hword') (stops_anglesText _ _) hmeasure
        (Text.stops_cons.2 rfl) hlists.symm).1
      exact absurd (String.toList_inj.1 heq) hother'
    | measure row' =>
      rw [toList_toText_measure, toList_toText_measure] at hlists
      simp only [List.append_cancel_left_eq, List.cons.injEq, true_and] at hlists
      have hdigits : ∀ {row : Nat}, ∀ ch ∈ Nat.toDigits 10 row, ch.isDigit = true :=
        fun ch hch => Nat.isDigit_of_mem_toDigits (by decide) (by decide) hch
      have heq := (Text.append_inj_of_stops hdigits (Text.stops_cons.2 rfl) hdigits
        (Text.stops_cons.2 rfl) hlists).1
      rw [← Nat.ofDigitChars_ten_toDigits (n := row), heq, Nat.ofDigitChars_ten_toDigits]

end Instruction

/-! ### Gates -/

namespace Node

variable {x y : Node}

/-- There is never a third angle without a second. -/
def AnglesInOrder (x : Node) : Prop := x.lambda.isSome = true → x.phi.isSome = true

theorem lasting_anglesInOrder : Lasting AnglesInOrder where
  ofSymbol _ h := by cases h
  newNode {g x} hnew hlambda := by
    unfold Column.newNode at hnew
    split at hnew
    · cases hnew
      cases hlambda
    · rename_i theta more _
      split_ifs at hnew
      cases hnew
      cases more with
      | nil => cases hlambda
      | cons phi rest => rfl
  altered haltered hx h := by
    rw [haltered.further_eq.1]
    exact hx (haltered.further_eq.2 ▸ h)
  atRow h _ := h

/-- Controls act on the node, angles and a partner are those of its gate, and no angle is left
out between others. -/
structure Legible (x : Node) : Prop where
  controlsAct : x.controlsAct = true
  proper : x.Proper
  anglesInOrder : x.AnglesInOrder

/-- The nodes are the same gate in the same row with the same links, and their angles are the same
unless both are neutral. -/
structure Matches (x y : Node) : Prop where
  kind : x.kind = y.kind
  row : x.row = y.row
  control : x.control = y.control
  secondControl : x.secondControl = y.secondControl
  partner : x.partner = y.partner
  angles : Angle.isNeutral x.theta = true ∧ Angle.isNeutral y.theta = true ∨
    x.theta = y.theta ∧ x.phi = y.phi ∧ x.lambda = y.lambda

/-- The kind tells which controls there are. -/
theorem isSome_control_eq (hx : x.controlsAct = true) (hy : y.controlsAct = true)
    (hkind : x.kind = y.kind) : x.control.isSome = y.control.isSome ∧
      x.secondControl.isSome = y.secondControl.isSome := by
  have hcontrolled := (tells_kind hx).controlled_iff.symm.trans
    (hkind ▸ (tells_kind hy).controlled_iff)
  have htoffoli := (tells_kind hx).toffoli_iff.symm.trans (hkind ▸ (tells_kind hy).toffoli_iff)
  have hfirst := (tells_kind hx).control_of_second
  have hfirst' := (tells_kind hy).control_of_second
  cases hc : x.control <;> cases hs : x.secondControl <;> cases hc' : y.control <;>
    cases hs' : y.secondControl <;> simp_all

/-- Links that follow each other in the same order are the same if the kind is. -/
theorem links_inj (hx : x.controlsAct = true) (hy : y.controlsAct = true)
    (hkind : x.kind = y.kind) (hlinks : x.links = y.links) : x.control = y.control ∧
      x.secondControl = y.secondControl ∧ x.partner = y.partner := by
  obtain ⟨hcontrol, hsecond⟩ := isSome_control_eq hx hy hkind
  simp only [links, controls] at hlinks
  cases hc : x.control <;> cases hs : x.secondControl <;> cases hc' : y.control <;>
    cases hs' : y.secondControl <;> cases hp : x.partner <;> cases hp' : y.partner <;>
    simp_all

/-- The angles of an instruction tell all angles, or that the angle is neutral. -/
theorem angles_inj (hx : x.AnglesInOrder) (hy : y.AnglesInOrder) (h : x.angles = y.angles) :
    Angle.isNeutral x.theta = true ∧ Angle.isNeutral y.theta = true ∨
      x.theta = y.theta ∧ x.phi = y.phi ∧ x.lambda = y.lambda := by
  simp only [angles, isRotated, AnglesInOrder] at h hx hy
  cases hn : Angle.isNeutral x.theta <;> cases hn' : Angle.isNeutral y.theta <;>
    cases hp : x.phi <;> cases hp' : y.phi <;> cases hl : x.lambda <;> cases hl' : y.lambda <;>
    simp_all

/-- A measurement has no links and no angle. -/
theorem Legible.measure (hx : x.Legible) (hkind : x.kind = .plain .measure) :
    x.links = [] ∧ Angle.isNeutral x.theta = true := by
  have hsymbol : x.symbol = .measure := by rw [← symbol_kind, hkind]; rfl
  have hcontrols : x.controls = [] := by
    by_contra hne
    have hcontrolled := (controlsAct_iff.1 hx.controlsAct).1 hne
    rw [hkind] at hcontrolled
    cases hcontrolled
  have hpartner : x.partner = none := by
    by_contra hne
    have hswap := hx.proper.symbol_of_partner (Option.isSome_iff_ne_none.2 hne)
    rw [hsymbol] at hswap
    cases hswap
  refine ⟨by rw [links, hcontrols, hpartner]; rfl, ?_⟩
  rw [hx.proper.theta_eq_pi (by rw [hsymbol]; rfl), Angle.isNeutral_pi]

theorem instruction?_eq_measure {row : Nat} (h : x.instruction? = some (.measure row)) :
    x.kind = .plain .measure ∧ row = x.row := by
  unfold instruction? at h
  split at h
  · rename_i hkind
    cases h
    exact ⟨beq_iff_eq.1 hkind, rfl⟩
  · obtain ⟨_, _, heq⟩ := Option.map_eq_some_iff.1 h
    cases heq

theorem wellformed_of_instruction? {i : Instruction} (h : x.instruction? = some i) :
    i.Wellformed := by
  cases i with
  | measure row => exact trivial
  | gate name angles operands =>
    obtain ⟨hname, -, rfl⟩ := instruction?_eq_gate h
    refine ⟨fun _ => Kind.isSeparator_of_mem hname, ?_, by simp⟩
    rintro rfl
    have hkind : x.kind = .plain .measure := Kind.eq_of_instructionName? hname rfl
    rw [instruction?, if_pos (beq_iff_eq.2 hkind)] at h
    cases h

/-- The instruction tells the gate. -/
theorem Legible.matches (hx : x.Legible) (hy : y.Legible) (hgate : x.kind.isNull = false)
    (h : x.instruction? = y.instruction?) : x.Matches y := by
  have hparts : x.kind = y.kind ∧ x.row = y.row ∧ x.links = y.links ∧
      (Angle.isNeutral x.theta = true ∧ Angle.isNeutral y.theta = true ∨
        x.theta = y.theta ∧ x.phi = y.phi ∧ x.lambda = y.lambda) := by
    rcases instruction?_cases hgate with hmeasure | ⟨name, hname, hinstruction⟩
    · obtain ⟨hkind, -⟩ := instruction?_eq_measure hmeasure
      rw [h] at hmeasure
      obtain ⟨hkind', hrow⟩ := instruction?_eq_measure hmeasure
      obtain ⟨hlinks, hneutral⟩ := hx.measure hkind
      obtain ⟨hlinks', hneutral'⟩ := hy.measure hkind'
      exact ⟨hkind.trans hkind'.symm, hrow, hlinks.trans hlinks'.symm, .inl ⟨hneutral, hneutral'⟩⟩
    · rw [h] at hinstruction
      obtain ⟨hname', hangles, hoperands⟩ := instruction?_eq_gate hinstruction
      obtain ⟨hlinks, hrow⟩ := List.append_inj' hoperands rfl
      exact ⟨Kind.eq_of_instructionName? hname hname', (List.cons.inj hrow).1, hlinks,
        angles_inj hx.anglesInOrder hy.anglesInOrder hangles⟩
  obtain ⟨hkind, hrow, hlinks, hangles⟩ := hparts
  obtain ⟨hcontrol, hsecond, hpartner⟩ := links_inj hx.controlsAct hy.controlsAct hkind hlinks
  exact ⟨hkind, hrow, hcontrol, hsecond, hpartner, hangles⟩

end Node

namespace Circuit

variable {n d n' d' : Nat} {c : Circuit n d} {c' : Circuit n' d'}

theorem EditReachable.legible (h : c.EditReachable) (cell : Cell) : (c.node cell).Legible where
  controlsAct := (h.tidy cell.col).controlsAct cell.row
  proper := (h.tidy cell.col).proper cell.row
  anglesInOrder := h.lasting Node.lasting_anglesInOrder cell

/-- The line of a gate tells the gate: two gates of edited circuits, of whatever sizes, that have
the same line are of the same kind and have the same row, controls and partner, and they have the
same angles unless the angles of both are neutral. -/
theorem line_tells (h : c.EditReachable) (h' : c'.EditReachable) {cell cell' : Cell}
    (hgate : (c.node cell).kind.isNull = false) (hgate' : (c'.node cell').kind.isNull = false)
    (hline : c.lineAt cell = c'.lineAt cell') : (c.node cell).Matches (c'.node cell') := by
  obtain ⟨i, hi⟩ := Option.isSome_iff_exists.1 (Node.isSome_instruction?_iff.2 hgate)
  obtain ⟨i', hi'⟩ := Option.isSome_iff_exists.1 (Node.isSome_instruction?_iff.2 hgate')
  rw [lineAt, lineAt, hi, hi', Option.map_some, Option.map_some, Option.some_inj] at hline
  have heq := Instruction.toText_injective (Node.wellformed_of_instruction? hi)
    (Node.wellformed_of_instruction? hi') hline
  exact (h.legible cell).matches (h'.legible cell') hgate (by rw [hi, hi', heq])

/-- A controlled Z with three angles. -/
def turnedZ : Circuit 2 1 :=
  (blank.after (.command (.place ⟨1, 0⟩ (.plain .z) [1, 2, 3]))).after
    (.command (.toggleControl ⟨1, 0⟩))

/-- The same gate elsewhere, turned a second time. -/
def turnedTwiceZ : Circuit 3 2 :=
  ((blank.after (.command (.place ⟨1, 1⟩ (.plain .z) [0, 2, 3]))).after
    (.command (.toggleControl ⟨1, 1⟩))).after (.command (.rotate ⟨1, 1⟩ 1))

theorem line_tells_turned :
    turnedZ.EditReachable ∧ turnedTwiceZ.EditReachable ∧
      turnedZ.lineAt ⟨1, 0⟩ = some "crz(1,2,3) q[0],q[1];" ∧
      turnedTwiceZ.lineAt ⟨1, 1⟩ = some "crz(1,2,3) q[0],q[1];" ∧
      (turnedZ.node ⟨1, 0⟩).Matches (turnedTwiceZ.node ⟨1, 1⟩) := by
  have h : turnedZ.EditReachable := (EditReachable.blank.after _ rfl).after _ rfl
  have h' : turnedTwiceZ.EditReachable :=
    ((EditReachable.blank.after _ rfl).after _ rfl).after _ rfl
  have hline : turnedZ.lineAt ⟨1, 0⟩ = some "crz(1,2,3) q[0],q[1];" := by decide +kernel
  have hline' : turnedTwiceZ.lineAt ⟨1, 1⟩ = some "crz(1,2,3) q[0],q[1];" := by decide +kernel
  exact ⟨h, h', hline, hline', line_tells h h' (by decide +kernel) (by decide +kernel)
    (hline.trans hline'.symm)⟩

end Circuit

end QuantumCircuit

import Mathlib.Data.List.Forall2
import QuantumCircuit.Proofs.Column.Alike
import QuantumCircuit.Proofs.ProgramLines

/-!
# Control marks cannot be observed

Two circuits are `Alike` if they differ only in the rows of control inputs, where one may hold a
control mark and the other nothing.  Which of the two a row holds hangs on how the circuit has come
about; this module shows that nothing else does.

* `marks_indistinguishable` : circuits that are alike look the same (`Circuit.LooksLike`: readings,
  owners of control inputs, program), every action has the same outcome in both, and leaves
  circuits that are alike.  So they look the same after runs of any length.

Storing nodes of one's own making is left out, and so is the attempt to toggle a control mark as if
it were a gate (`Action.IsFair`): both look at the mark itself.
-/

namespace QuantumCircuit

/-- The action stores no node of its caller's making and does not toggle control marks. -/
def Action.IsFair : Action → Prop
  | command (.toggleGate _ kind) => kind.symbol ≠ .control
  | edit _ (.place ..) => False
  | _ => True

theorem Action.IsFair.isRaw {a : Action} (h : a.IsFair) : a.isRaw = false := by
  cases a with
  | command command => rfl
  | reset => rfl
  | edit col e =>
    cases e with
    | place row x => exact absurd h id
    | _ => rfl

namespace Circuit

variable {n d : Nat} {c e : Circuit n d}

/-- All columns are alike. -/
def Alike (c e : Circuit n d) : Prop := ∀ col, (c.column col).Alike (e.column col)

theorem alike_iff : c.Alike e ↔ ∀ col < d, (c.column col).Alike (e.column col) := by
  refine ⟨fun h col _ => h col, fun h col => ?_⟩
  by_cases hcol : col < d
  · exact h col hcol
  · simp only [column, hcol, dif_neg, not_false_iff, Column.Alike.refl]

instance : Decidable (c.Alike e) := decidable_of_iff' _ alike_iff

/-- No question about the circuits has different answers. -/
structure LooksLike (c e : Circuit n d) : Prop where
  reading?_eq : ∀ cell, c.reading? cell = e.reading? cell
  controller?_eq : ∀ cell, c.controller? cell = e.controller? cell
  program_eq : c.program = e.program

/-- The row that an action tells, or why it is refused. -/
def outcome (c : Circuit n d) : Action → Except (EditError Cell) (Option Nat)
  | .command command => (Editor.attempt c command).map (·.2)
  | .edit col e => (c.apply col e).map (·.2)
  | .reset => .ok none

/-- The outcomes of actions that are taken one after the other. -/
def outcomes (c : Circuit n d) : List Action → List (Except (EditError Cell) (Option Nat))
  | [] => []
  | a :: rest => c.outcome a :: (c.after a).outcomes rest

/-- The circuit after actions that are taken one after the other. -/
def run (c : Circuit n d) (actions : List Action) : Circuit n d := actions.foldl after c

namespace Alike

theorem refl (c : Circuit n d) : c.Alike c := fun _ => .refl _

/-- Marks and empty rows have no instruction. -/
theorem instruction?_eq (h : c.Alike e) (cell : Cell) :
    (c.node cell).instruction? = (e.node cell).instruction? := by
  refine (h cell.col).same Node.instruction? (fun r => ?_) cell.row
  have hmark : (Node.controlMark r).kind = .control := (Node.kind_eq_plain_iff rfl).2 rfl
  have hblank : (Node.blank r).kind = .empty := (Node.kind_eq_plain_iff rfl).2 rfl
  simp [Node.instruction?, hmark, hblank, Kind.instructionName?]

theorem looksLike (h : c.Alike e) : c.LooksLike e where
  reading?_eq cell := by
    simp only [reading?, checkCell, contains, reading, (h cell.col).reading_eq]
    rfl
  controller?_eq cell := (h cell.col).controller?_eq cell.row
  program_eq := by
    have hlines : c.lineAt = e.lineAt :=
      funext fun cell => by rw [lineAt, lineAt, h.instruction?_eq]
    rw [program, program, programLines_eq, programLines_eq, hlines]
    rfl

/-! ### Actions -/

/-- A change that is taken alike by the column is taken alike by the circuit. -/
theorem edit {α : Type} (h : c.Alike e) {cell : Cell}
    {change : Column n → Except (EditError Nat) (Column n × α)}
    (hchange : Agree (fun p q => p.1.Alike q.1 ∧ p.2 = q.2) (change (c.column cell.col))
      (change (e.column cell.col))) :
    Agree (fun p q => p.1.Alike q.1 ∧ p.2 = q.2) (c.edit cell change) (e.edit cell change) := by
  by_cases hcol : cell.col < d
  · rw [edit_eq hcol, edit_eq hcol]
    generalize change (c.column cell.col) = r, change (e.column cell.col) = r' at hchange ⊢
    cases hchange with
    | @ok p q hpq =>
      refine .ok ⟨fun k => ?_, hpq.2⟩
      rw [column_withColumn hcol, column_withColumn hcol]
      by_cases hk : k = cell.col
      · rw [if_pos hk, if_pos hk]
        exact hpq.1
      · rw [if_neg hk, if_neg hk]
        exact h k
    | error he => exact .error (by rw [EditError.withoutKind_map, he, ← EditError.withoutKind_map])
  · rw [edit_of_le (Nat.not_lt.1 hcol), edit_of_le (Nat.not_lt.1 hcol)]
    exact .error rfl

theorem edit_silently (h : c.Alike e) {cell : Cell}
    {change : Column n → Except (EditError Nat) (Column n)}
    (hchange : Agree Column.Alike (change (c.column cell.col)) (change (e.column cell.col))) :
    Agree (fun p q => p.1.Alike q.1 ∧ p.2 = q.2)
      (c.edit cell fun column => Editor.silently (change column))
      (e.edit cell fun column => Editor.silently (change column)) :=
  h.edit (hchange.map fun _ _ hab => ⟨hab, rfl⟩)

theorem apply (h : c.Alike e) (hc : c.EditReachable) {col : Nat} {edit : ColumnEdit}
    (hfair : (Action.edit col edit).IsFair) :
    Agree (fun p q => p.1.Alike q.1 ∧ p.2 = q.2) (c.apply col edit) (e.apply col edit) := by
  refine h.edit ((h col).apply (hc.tidy col) fun row x heq => ?_)
  rw [heq] at hfair
  exact hfair

theorem attempt (h : c.Alike e) (hc : c.EditReachable) {command : Command}
    (hfair : (Action.command command).IsFair) :
    Agree (fun p q => p.1.Alike q.1 ∧ p.2 = q.2) (Editor.attempt c command)
      (Editor.attempt e command) := by
  have halike := fun cell : Cell => h cell.col
  have htidy := fun cell : Cell => hc.tidy cell.col
  cases command with
  | place cell kind angles =>
    exact .same_bind fun g _ => h.edit_silently ((halike cell).placeNew (htidy cell) cell.row g)
  | placeText cell kind text =>
    exact .same_bind fun angles _ => .same_bind fun g _ =>
      h.edit_silently ((halike cell).placeNew (htidy cell) cell.row g)
  | toggleGate cell kind =>
    dsimp only [Editor.attempt]
    exact h.edit_silently ((halike cell).toggleGate (htidy cell) cell.row hfair)
  | toggleControl cell =>
    dsimp only [Editor.attempt]
    exact h.edit_silently ((halike cell).toggleControl (htidy cell) cell.row)
  | addSecondControl cell =>
    dsimp only [Editor.attempt]
    exact h.edit (((halike cell).addSecondControl (htidy cell) cell.row).map
      fun _ _ hab => ⟨hab.1, congrArg some hab.2⟩)
  | toggleSwap cell =>
    dsimp only [Editor.attempt]
    exact h.edit_silently ((halike cell).toggleSwap (htidy cell) cell.row)
  | moveControl cell direction => exact h.apply hc trivial
  | delete cell => exact h.apply hc trivial
  | rotate cell delta => exact h.apply hc trivial
  | rotateTo cell text =>
    exact .same_bind fun theta _ =>
      h.edit_silently ((halike cell).rotateTo (htidy cell) cell.row theta)

/-- A fair action tells the same in circuits that are alike and leaves circuits that are alike. -/
theorem after (h : c.Alike e) (hc : c.EditReachable) {a : Action} (ha : a.IsFair) :
    Agree Eq (c.outcome a) (e.outcome a) ∧ (c.after a).Alike (e.after a) := by
  have hsettle : ∀ {r : Except (EditError Cell) (Circuit n d × Option Nat)} {r'},
      Agree (fun p q => p.1.Alike q.1 ∧ p.2 = q.2) r r' →
        Agree Eq (r.map (·.2)) (r'.map (·.2)) ∧ (c.settle r).Alike (e.settle r') := by
    rintro _ _ (hpq | hfault)
    · exact ⟨.ok hpq.2, hpq.1⟩
    · exact ⟨.error hfault, h⟩
  cases a with
  | command command => exact hsettle (h.attempt hc ha)
  | edit col edit => exact hsettle (h.apply hc ha)
  | reset => exact ⟨.ok rfl, .refl _⟩

theorem run (h : c.Alike e) (hc : c.EditReachable) {actions : List Action}
    (hactions : ∀ a ∈ actions, a.IsFair) :
    List.Forall₂ (Agree Eq) (c.outcomes actions) (e.outcomes actions) ∧
      (c.run actions).Alike (e.run actions) := by
  induction actions generalizing c e with
  | nil => exact ⟨.nil, h⟩
  | cons a rest ih =>
    have ha := hactions a List.mem_cons_self
    obtain ⟨houtcome, hafter⟩ := h.after hc ha
    obtain ⟨houtcomes, hrun⟩ := ih hafter (hc.after a ha.isRaw)
      fun b hb => hactions b (List.mem_cons_of_mem _ hb)
    exact ⟨.cons houtcome houtcomes, hrun⟩

end Alike

/-- Control marks cannot be told from empty rows of control inputs.  A circuit that is like an
edited one looks the same; every fair action succeeds in both, telling the same row, or is refused
in both for the same fault apart from the kinds that it names, and leaves circuits that are alike;
and so it is after every run of fair actions. -/
theorem marks_indistinguishable (hc : c.EditReachable) (h : c.Alike e) :
    c.LooksLike e ∧
    (∀ a : Action, a.IsFair →
      Agree Eq (c.outcome a) (e.outcome a) ∧ (c.after a).Alike (e.after a)) ∧
    ∀ actions : List Action, (∀ a ∈ actions, a.IsFair) →
      List.Forall₂ (Agree Eq) (c.outcomes actions) (e.outcomes actions) ∧
        (c.run actions).Alike (e.run actions) ∧ (c.run actions).LooksLike (e.run actions) := by
  refine ⟨h.looksLike, fun a ha => h.after hc ha, fun actions hactions => ?_⟩
  obtain ⟨houtcomes, hrun⟩ := h.run hc hactions
  exact ⟨houtcomes, hrun, hrun.looksLike⟩

/-- A controlled X in the middle row of three, just linked to the row above it. -/
def unmarked : Circuit 3 1 :=
  (blank.after (.command (.place ⟨1, 0⟩ (.plain .x) []))).after (.edit 0 (.attachControl 1 0))

/-- The same after a turn by zero, which puts the gate back with a mark on its control. -/
def marked : Circuit 3 1 := unmarked.after (.edit 0 (.rotate 1 (.zero false)))

/-- The control moves below its gate, a second one is attached above, and the gate is deleted. -/
def detour : List Action :=
  [.command (.moveControl ⟨1, 0⟩ .down), .command (.addSecondControl ⟨1, 0⟩),
    .edit 0 (.attachControl 0 2), .command (.delete ⟨2, 0⟩)]

theorem marks_indistinguishable_marked :
    unmarked.EditReachable ∧ unmarked.Alike marked ∧
      (unmarked.node ⟨0, 0⟩).kind = .empty ∧ (marked.node ⟨0, 0⟩).kind = .control ∧
      (∀ a ∈ detour, a.IsFair) ∧
      unmarked.reading? ⟨0, 0⟩ = marked.reading? ⟨0, 0⟩ ∧
      List.Forall₂ (Agree Eq) (unmarked.outcomes detour) (marked.outcomes detour) ∧
      (unmarked.run detour).program = (marked.run detour).program := by
  have hreach : unmarked.EditReachable := (EditReachable.blank.after _ rfl).after _ rfl
  have halike : unmarked.Alike marked := by decide +kernel
  have hfair : ∀ a ∈ detour, a.IsFair := by
    simp only [detour, List.mem_cons, List.not_mem_nil, or_false]
    rintro a (rfl | rfl | rfl | rfl) <;> trivial
  have h := marks_indistinguishable hreach halike
  obtain ⟨houtcomes, -, hlooks⟩ := h.2.2 detour hfair
  exact ⟨hreach, halike, by decide +kernel, by decide +kernel, hfair, h.1.reading?_eq ⟨0, 0⟩,
    houtcomes, hlooks.program_eq⟩

end Circuit

end QuantumCircuit

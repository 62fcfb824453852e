import QuantumCircuit.Editor
import QuantumCircuit.Proofs.Column.Tidy

/-!
# Histories of a circuit

What happens to a circuit is a sequence of `Action`s: commands of a user, edits of single columns,
and starting over.  A refused action changes nothing (`Circuit.after`).

* `Circuit.Reachable` : the circuits that all these actions lead to;
* `Circuit.EditReachable` : those that are reached without a placement of a node of the caller's
  making;
* `Circuit.ReachedBy` : those that are reached by actions with some property.

An action leaves each column alone, empties it, takes one step in it or places a node there
(`Circuit.column_after`), so an invariant of columns is kept by actions if it is kept by these
(`Circuit.column_after_induction`).  All columns of a reachable circuit are linked
(`Circuit.Reachable.linked`), and those of an edited one are tidy (`Circuit.EditReachable.tidy`).
-/

namespace QuantumCircuit

/-- One thing that happens to a circuit. -/
inductive Action
  /-- A user asks for a change. -/
  | command (command : Command)
  /-- An edit of one column. -/
  | edit (col : Nat) (edit : ColumnEdit)
  /-- All columns are emptied. -/
  | reset
  deriving DecidableEq

/-- The action stores a node of its caller's making. -/
def Action.isRaw : Action → Bool
  | edit _ (.place ..) => true
  | _ => false

/-- The cell that a command is about. -/
def Command.cell : Command → Cell
  | .place cell _ _ | .placeText cell _ _ | .toggleGate cell _ | .toggleControl cell
  | .addSecondControl cell | .toggleSwap cell | .moveControl cell _ | .delete cell
  | .rotate cell _ | .rotateTo cell _ => cell

/-- The command deletes a gate: it asks for that, or it toggles a gate that is there. -/
def Command.Deletes {n d : Nat} (c : Circuit n d) : Command → Prop
  | .delete _ => True
  | .toggleGate cell _ => c.reading cell ≠ .empty
  | _ => False

namespace Circuit

variable {n d : Nat} {c c' : Circuit n d}

/-- The circuit that an edit leads to: the old one if the edit is refused. -/
def settle {ε α : Type} (c : Circuit n d) : Except ε (Circuit n d × α) → Circuit n d
  | .ok (c', _) => c'
  | .error _ => c

/-- The circuit after an action. -/
def after (c : Circuit n d) : Action → Circuit n d
  | .command command => c.settle (Editor.attempt c command)
  | .edit col e => c.settle (c.apply col e)
  | .reset => .blank

/-- The circuits that some history leads to. -/
inductive Reachable : Circuit n d → Prop
  | blank : Reachable .blank
  | after {c : Circuit n d} (h : Reachable c) (a : Action) : Reachable (c.after a)

/-- The circuits that some history leads to in which nobody stores nodes of their own making. -/
inductive EditReachable : Circuit n d → Prop
  | blank : EditReachable .blank
  | after {c : Circuit n d} (h : EditReachable c) (a : Action) (ha : a.isRaw = false) :
      EditReachable (c.after a)

/-- The circuits that some history leads to in which each action was allowed when it happened. -/
inductive ReachedBy (allowed : Circuit n d → Action → Prop) : Circuit n d → Prop
  | blank : ReachedBy allowed .blank
  | after {c : Circuit n d} (h : ReachedBy allowed c) (a : Action) (ha : allowed c a) :
      ReachedBy allowed (c.after a)

theorem EditReachable.reachable (h : c.EditReachable) : c.Reachable := by
  induction h with
  | blank => exact .blank
  | after _ a _ ih => exact ih.after a

@[simp]
theorem column_blank (col : Nat) : (blank : Circuit n d).column col = .blank := by
  unfold column blank
  split
  · simp
  · rfl

/-! ### One column of a circuit -/

/-- The circuit with another column in one place. -/
def withColumn (c : Circuit n d) (col : Nat) (column : Column n) : Circuit n d :=
  if h : col < d then ⟨c.columns.set col column⟩ else c

theorem column_withColumn {col : Nat} (hcol : col < d) (column : Column n) (k : Nat) :
    (c.withColumn col column).column k = if k = col then column else c.column k := by
  unfold Circuit.column withColumn
  by_cases hk : k < d
  · simp only [hk, hcol, dif_pos, Vector.getElem_set, eq_comm]
  · have hne : k ≠ col := fun heq => hk (heq ▸ hcol)
    simp [hk, hne]

/-- A circuit is determined by its columns. -/
theorem ext_column (h : ∀ col < d, c.column col = c'.column col) : c = c' := by
  obtain ⟨columns⟩ := c
  obtain ⟨columns'⟩ := c'
  congr 1
  ext1 col hcol
  simpa [column, hcol] using h col hcol

@[simp]
theorem withColumn_column (c : Circuit n d) (col : Nat) : c.withColumn col (c.column col) = c := by
  by_cases hcol : col < d
  · refine ext_column fun k _ => ?_
    rw [column_withColumn hcol]
    split_ifs with hk
    · rw [hk]
    · rfl
  · exact dif_neg hcol

@[simp]
theorem withColumn_withColumn (c : Circuit n d) (col : Nat) (column column' : Column n) :
    (c.withColumn col column).withColumn col column' = c.withColumn col column' := by
  by_cases hcol : col < d
  · refine ext_column fun k _ => ?_
    simp only [column_withColumn hcol]
    split_ifs <;> rfl
  · simp only [withColumn, hcol, dif_neg, not_false_iff]

/-- A column that differs in one row from the old one changes one cell. -/
theorem node_withColumn {cell : Cell} (hcol : cell.col < d) {column : Column n} {x : Node}
    (h : ∀ r, column.node r = if r = cell.row then x else (c.column cell.col).node r) (k : Cell) :
    (c.withColumn cell.col column).node k = if k = cell then x else c.node k := by
  obtain ⟨row, col⟩ := cell
  obtain ⟨r, k⟩ := k
  rw [node, column_withColumn hcol]
  simp only [Cell.mk.injEq]
  by_cases hk : k = col
  · rw [if_pos hk, h, node, hk]
    by_cases hr : r = row <;> simp [hr]
  · simp [hk, node]

/-- An edit sees one column and stores it back. -/
theorem edit_eq {α : Type} {cell : Cell} (hcol : cell.col < d)
    (change : Column n → Except (EditError Nat) (Column n × α)) :
    c.edit cell change =
      match change (c.column cell.col) with
      | .ok (column, a) => .ok (c.withColumn cell.col column, a)
      | .error e => .error (e.map (⟨·, cell.col⟩)) := by
  have hcolumn : c.columns[cell.col] = c.column cell.col := (dif_pos hcol).symm
  rw [edit, dif_pos hcol, hcolumn]
  cases change (c.column cell.col) with
  | error e => rfl
  | ok result =>
    obtain ⟨column, a⟩ := result
    dsimp only
    rw [withColumn, dif_pos hcol]

theorem edit_of_le {α : Type} {cell : Cell} (hcol : d ≤ cell.col)
    (change : Column n → Except (EditError Nat) (Column n × α)) :
    c.edit cell change = .error (.outOfRange cell) :=
  dif_neg (Nat.not_lt.2 hcol)

theorem edit_eq_ok_iff {α : Type} {cell : Cell}
    {change : Column n → Except (EditError Nat) (Column n × α)} {a : α} :
    c.edit cell change = .ok (c', a) ↔ cell.col < d ∧
      ∃ column, change (c.column cell.col) = .ok (column, a) ∧
        c' = c.withColumn cell.col column := by
  by_cases hcol : cell.col < d
  · rw [edit_eq hcol]
    cases change (c.column cell.col) with
    | error e => simp
    | ok result =>
      constructor
      · intro h
        cases h
        exact ⟨hcol, result.1, rfl, rfl⟩
      · rintro ⟨-, column, h, rfl⟩
        cases h
        rfl
  · rw [edit_of_le (Nat.not_lt.1 hcol)]
    exact ⟨nofun, fun h => absurd h.1 hcol⟩

theorem edit_of_error {α : Type} {cell : Cell} (hcol : cell.col < d)
    {change : Column n → Except (EditError Nat) (Column n × α)} {e : EditError Nat}
    (h : change (c.column cell.col) = .error e) :
    c.edit cell change = .error (e.map (⟨·, cell.col⟩)) := by
  rw [edit_eq hcol, h]

/-! ### What an action does to a column -/

/-- A successful edit takes one step in one column. -/
theorem column_edit_cases {α : Type} {cell : Cell} {a : α}
    {change : Column n → Except (EditError Nat) (Column n × α)}
    (h : c.edit cell change = .ok (c', a)) (col : Nat) :
    c'.column col = c.column col ∨ change (c.column col) = .ok (c'.column col, a) := by
  obtain ⟨column, hchange, hcolumn⟩ := column_edit h
  rw [hcolumn]
  by_cases hcol : col = cell.col
  · rw [if_pos hcol, hcol]
    exact .inr hchange
  · exact .inl (if_neg hcol)

theorem silently_eq_ok {e : Except (EditError Nat) (Column n)} {column : Column n}
    {told : Option Nat} (h : Editor.silently e = .ok (column, told)) : e = .ok column :=
  Column.told_eq_ok h

theorem column_edit_silently {cell : Cell} {told : Option Nat}
    {change : Column n → Except (EditError Nat) (Column n)}
    (h : c.edit cell (fun column => Editor.silently (change column)) = .ok (c', told))
    (hstep : ∀ {column column' : Column n}, change column = .ok column' → column.Step column')
    (k : Nat) : c'.column k = c.column k ∨ (c.column k).Step (c'.column k) :=
  (column_edit_cases h k).imp_right fun h => hstep (silently_eq_ok h)

/-- The circuit `c'` comes from `c` by a change of the gate in a cell. -/
structure ChangedAt (c : Circuit n d) (cell : Cell) (c' : Circuit n d) : Prop where
  change : (c.column cell.col).Change cell.row (c'.column cell.col)
  column_eq : ∀ col, col ≠ cell.col → c'.column col = c.column col

theorem changedAt_edit {α : Type} {cell : Cell} {a : α}
    {change : Column n → Except (EditError Nat) (Column n × α)}
    (h : c.edit cell change = .ok (c', a))
    (hchange : ∀ {column}, change (c.column cell.col) = .ok (column, a) →
      (c.column cell.col).Change cell.row column) : c.ChangedAt cell c' := by
  obtain ⟨column, hok, hcolumn⟩ := column_edit h
  refine ⟨?_, fun col hcol => by rw [hcolumn, if_neg hcol]⟩
  rw [hcolumn, if_pos rfl]
  exact hchange hok

theorem changedAt_edit_silently {cell : Cell} {told : Option Nat}
    {change : Column n → Except (EditError Nat) (Column n)}
    (h : c.edit cell (fun column => Editor.silently (change column)) = .ok (c', told))
    (hchange : ∀ {column}, change (c.column cell.col) = .ok column →
      (c.column cell.col).Change cell.row column) : c.ChangedAt cell c' :=
  changedAt_edit h fun hok => hchange (silently_eq_ok hok)

theorem changedAt_attempt {command : Command} {told : Option Nat}
    (h : Editor.attempt c command = .ok (c', told)) (hkeep : ¬ command.Deletes c) :
    c.ChangedAt command.cell c' := by
  cases command with
  | place cell kind angles =>
    obtain ⟨g, -, h⟩ := Column.bind_eq_ok h
    exact changedAt_edit_silently h Column.change_placeNew
  | placeText cell kind text =>
    obtain ⟨angles, -, h⟩ := Column.bind_eq_ok h
    obtain ⟨g, -, h⟩ := Column.bind_eq_ok h
    exact changedAt_edit_silently h Column.change_placeNew
  | toggleGate cell kind =>
    have hempty : (c.column cell.col).reading cell.row = .empty := Classical.not_not.1 hkeep
    dsimp only [Editor.attempt] at h
    refine changedAt_edit_silently h fun hok => ?_
    rcases Column.change_toggleGate hok with hchange | hdelete
    · exact hchange
    · rw [Column.eq_of_delete hempty hdelete]
      exact .keep
  | toggleControl cell =>
    dsimp only [Editor.attempt] at h
    exact changedAt_edit_silently h Column.change_toggleControl
  | addSecondControl cell =>
    dsimp only [Editor.attempt] at h
    refine changedAt_edit h fun hok => ?_
    obtain ⟨⟨_, _⟩, hadd, heq⟩ := Column.map_eq_ok hok
    cases heq
    exact Column.change_addSecondControl hadd
  | toggleSwap cell =>
    dsimp only [Editor.attempt] at h
    exact changedAt_edit_silently h Column.change_toggleSwap
  | moveControl cell direction =>
    dsimp only [Editor.attempt, apply] at h
    refine changedAt_edit h fun hok => ?_
    obtain ⟨⟨_, _⟩, hmove, heq⟩ := Column.map_eq_ok hok
    cases heq
    exact Column.change_moveControl hmove
  | delete cell => exact absurd trivial hkeep
  | rotate cell delta =>
    dsimp only [Editor.attempt, apply] at h
    exact changedAt_edit h fun hok => Column.change_rotate (Column.told_eq_ok hok)
  | rotateTo cell text =>
    obtain ⟨theta, -, h⟩ := Column.bind_eq_ok h
    exact changedAt_edit_silently h Column.change_rotate

theorem ChangedAt.column_cases {cell : Cell} (h : c.ChangedAt cell c') (k : Nat) :
    c'.column k = c.column k ∨ (c.column k).Step (c'.column k) := by
  by_cases hk : k = cell.col
  · rw [hk]
    exact .inr (.change h.change)
  · exact .inl (h.column_eq k hk)

theorem column_attempt {command : Command} {told : Option Nat}
    (h : Editor.attempt c command = .ok (c', told)) (k : Nat) :
    c'.column k = c.column k ∨ (c.column k).Step (c'.column k) := by
  by_cases hdelete : command.Deletes c
  · cases command with
    | toggleGate cell kind =>
      dsimp only [Editor.attempt] at h
      exact column_edit_silently h Column.step_toggleGate k
    | delete cell =>
      dsimp only [Editor.attempt, apply] at h
      exact column_edit_silently h Column.step_delete k
    | _ => exact hdelete.elim
  · exact (changedAt_attempt h hdelete).column_cases k

/-- An edit that is carried out or refused leaves a column alone or changes it. -/
theorem column_settle_edit {α : Type} (c : Circuit n d) (cell : Cell)
    (change : Column n → Except (EditError Nat) (Column n × α)) (k : Nat) :
    (c.settle (c.edit cell change)).column k = c.column k ∨
      k = cell.col ∧
        ∃ a, change (c.column k) = .ok ((c.settle (c.edit cell change)).column k, a) := by
  cases hresult : c.edit cell change with
  | error fault => exact .inl rfl
  | ok result =>
    obtain ⟨column, hchange, hcolumn⟩ := column_edit hresult
    rw [settle, hcolumn]
    split_ifs with hk
    · exact .inr ⟨hk, result.2, by rw [hk, hchange]⟩
    · exact .inl rfl

/-- An action leaves a column alone, empties it, takes a step in it, or stores a node there that
its caller has made. -/
theorem column_after (c : Circuit n d) (a : Action) (k : Nat) :
    (c.after a).column k = c.column k ∨ (c.after a).column k = .blank ∨
      (c.column k).Step ((c.after a).column k) ∨
      ∃ row x, a = .edit k (.place row x) ∧
        (c.column k).place row x = .ok ((c.after a).column k) := by
  cases a with
  | command command =>
    cases hresult : Editor.attempt c command with
    | error fault => exact .inl (by rw [after, hresult, settle])
    | ok result =>
      rw [after, hresult, settle]
      rcases column_attempt hresult k with hsame | hstep
      · exact .inl hsame
      · exact .inr (.inr (.inl hstep))
  | edit col e =>
    rcases column_settle_edit c ⟨e.row, col⟩ (·.apply e) k with hsame | ⟨rfl, told, happly⟩
    · exact .inl hsame
    · rcases Column.step_apply happly with hstep | ⟨row, x, rfl, hplace⟩
      · exact .inr (.inr (.inl hstep))
      · exact .inr (.inr (.inr ⟨row, x, rfl, hplace⟩))
  | reset => exact .inr (.inl (column_blank k))

/-! ### Invariants -/

/-- What holds of a column and of the blank one, and of whatever a step or a placement of the
action makes of the column, holds of the column after the action. -/
theorem column_after_induction {P : Column n → Prop} {a : Action} {k : Nat}
    (hsame : P (c.column k)) (hblank : P .blank)
    (hstep : ∀ {column}, (c.column k).Step column → P column)
    (hplace : ∀ {row x column}, a = .edit k (.place row x) →
      (c.column k).place row x = .ok column → P column) : P ((c.after a).column k) := by
  rcases column_after c a k with heq | heq | hok | ⟨row, x, heq, hok⟩
  · rwa [heq]
  · rwa [heq]
  · exact hstep hok
  · exact hplace heq hok

/-- All columns of a circuit are linked, whatever has happened to it. -/
theorem Reachable.linked (h : c.Reachable) (k : Nat) : (c.column k).Linked := by
  induction h with
  | blank => exact (column_blank k).symm ▸ Column.linked_blank
  | after _ a ih =>
    exact column_after_induction ih Column.linked_blank ih.step fun _ hplace => ih.place hplace

/-- All columns of an edited circuit are tidy. -/
theorem EditReachable.tidy (h : c.EditReachable) (k : Nat) : (c.column k).Tidy := by
  induction h with
  | blank => exact (column_blank k).symm ▸ Column.tidy_blank
  | after _ a ha ih =>
    refine column_after_induction ih Column.tidy_blank ih.step fun heq _ => ?_
    rw [heq] at ha
    cases ha

end Circuit

/-- A command does to the circuit of an editor what it does in a history, whether it is refused or
not. -/
theorem Editor.circuit_perform {n d : Nat} (e : Editor n d) (command : Command) :
    (e.perform command).1.circuit = e.circuit.after (.command command) := by
  unfold perform Circuit.after Circuit.settle
  dsimp only
  split <;> rename_i heq <;> rw [heq]

end QuantumCircuit

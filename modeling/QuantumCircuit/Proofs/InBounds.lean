import QuantumCircuit.Proofs.Table.Operations

/-!
# Operations stay in bounds

No operation uses a cell that the table does not have or counts past the largest number of a machine
word, whatever has been done before and whatever it is asked for.  The cells that are used without
being looked for first come from the links of nodes, and these stay in the circuit after every
history (`Circuit.Reachable.linked`); all that is counted are steps and distances from rows and
columns of the circuit.

A desk is compared with an editor: they start alike, and an operation that comes to the same on both
leaves them alike (`Editor.Sound.desk_serve`).  So a desk that was reached is the desk of an editor
(`Desk.Reached.exists_editor`), where an operation succeeds or is refused and nothing else.

* `Desk.operations_in_bounds` : on every desk that was reached, every operation is that of the
  editor, never stops for another reason than a refusal, and is refused with the cell that it looks
  for first if the circuit does not have it.
-/

namespace QuantumCircuit

namespace Editor

variable {n d : Nat} {e : Editor n d}

/-! ### What an operation keeps -/

/-- The circuit after an operation is the old one, or it comes of an action. -/
theorem circuit_serve (e : Editor n d) (op : Operation) :
    (e.serve op).1.circuit = e.circuit ∨ ∃ a, (e.serve op).1.circuit = e.circuit.after a := by
  cases op with
  | command command =>
    refine .inr ⟨.command command, ?_⟩
    rw [serve, perform, Circuit.after]
    cases attempt e.circuit command <;> rfl
  | edit col edit =>
    refine .inr ⟨.edit col edit, ?_⟩
    rw [serve, Circuit.after]
    cases e.circuit.apply col edit <;> rfl
  | reset => exact .inr ⟨.reset, rfl⟩
  | _ => exact .inl rfl

theorem cursor_serve_le (hrow : e.cursor.row ≤ n) (hcol : e.cursor.col ≤ d) (op : Operation) :
    (e.serve op).1.cursor.row ≤ n ∧ (e.serve op).1.cursor.col ≤ d := by
  cases op with
  | command command =>
    dsimp only [serve, perform]
    split <;> exact ⟨hrow, hcol⟩
  | edit col edit =>
    dsimp only [serve]
    split <;> exact ⟨hrow, hcol⟩
  | moveCursor direction =>
    obtain ⟨hrow', hcol'⟩ := e.moveCursor_bounds direction
    dsimp only [serve]
    omega
  | reset | resetCursor => exact ⟨Nat.zero_le n, Nat.zero_le d⟩
  | _ => exact ⟨hrow, hcol⟩

theorem Sound.serve (h : e.Sound) (op : Operation) : (e.serve op).1.Sound where
  wires_lt := h.wires_lt
  depth_lt := h.depth_lt
  reachable := by
    rcases e.circuit_serve op with heq | ⟨a, heq⟩ <;> rw [heq]
    · exact h.reachable
    · exact h.reachable.after a
  row_le := (cursor_serve_le h.row_le h.col_le op).1
  col_le := (cursor_serve_le h.row_le h.col_le op).2

/-- An operation that moves the cursor tells where it has come to. -/
theorem cursor_serve (e : Editor n d) (op : Operation) :
    (e.serve op).1.cursor =
      match (e.serve op).2 with
      | .ok (.cursor cell) => cell
      | _ => e.cursor := by
  cases op with
  | command command =>
    rw [serve, perform]
    cases attempt e.circuit command <;> rfl
  | edit col edit =>
    rw [serve]
    cases e.circuit.apply col edit <;> rfl
  | node cell =>
    rw [serve]
    cases e.circuit.node? cell <;> rfl
  | kind cell =>
    rw [serve]
    cases e.circuit.reading? cell <;> rfl
  | _ => rfl

/-- What was asked of the editor has been done on its desk. -/
theorem Sound.desk_serve (h : e.Sound) (op : Operation) :
    e.desk.after op = (e.serve op).1.desk := by
  have hcursor := cursor_serve e op
  rw [Desk.after, h.run_operation]
  generalize e.serve op = result at hcursor
  obtain ⟨e', fault | answer⟩ := result
  · exact congrArg (Desk.mk _) hcursor.symm
  · refine Eq.trans ?_ (congrArg (Desk.mk _) hcursor.symm)
    cases answer <;> rfl

end Editor

namespace Desk

variable {n d : Nat} {desk : Desk}

theorem Reached.foldl (h : Reached n d desk) (ops : List Operation) :
    Reached n d (ops.foldl Desk.after desk) := by
  induction ops generalizing desk with
  | nil => exact h
  | cons op rest ih => exact ih (h.after op)

/-- A desk that was reached is the desk of an editor. -/
theorem Reached.exists_editor (hn : n < 2 ^ 63) (hd : d < 2 ^ 63)
    (h : Reached n d desk) : ∃ e : Editor n d, e.Sound ∧ desk = e.desk := by
  induction h with
  | start =>
    refine ⟨.start .pi, ⟨hn, hd, .blank, Nat.zero_le n, Nat.zero_le d⟩, ?_⟩
    rw [Editor.desk, Editor.start, Circuit.table_blank]
  | after _ op ih =>
    obtain ⟨e, hsound, rfl⟩ := ih
    exact ⟨(e.serve op).1, hsound.serve op, hsound.desk_serve op⟩

/-- On every desk that operations have led to, with whatever arguments and whether they succeeded or
not, an operation succeeds or is refused: it uses no cell that the table does not have, and no
number that does not fit into a machine word.  An operation that first looks for a cell is refused
if the circuit does not have that cell.  The desk is that of an editor of a circuit that can be
reached, and the operation comes to what it comes to there. -/
theorem operations_in_bounds (hn : n < 2 ^ 63) (hd : d < 2 ^ 63)
    (h : Reached n d desk) :
    (∀ op : Operation,
      ((∃ answer table, op.run desk = .ok answer table) ∨
        ∃ fault table, op.run desk = .error (.refused fault) table) ∧
      ∀ cell, op.firstChecked? = some cell → ¬(cell.row < n ∧ cell.col < d) →
        op.run desk = .error (.refused (.outOfRange cell)) desk.table) ∧
    ∃ e : Editor n d, e.circuit.Reachable ∧ desk = e.desk ∧
      ∀ op : Operation, op.run desk = Editor.shown (e.serve op) := by
  obtain ⟨e, hsound, rfl⟩ := h.exists_editor hn hd
  refine ⟨fun op => ⟨?_, fun cell hfirst hout => op.run_of_outside hfirst hout⟩,
    e, hsound.reachable, rfl, hsound.run_operation⟩
  rw [hsound.run_operation op]
  obtain ⟨e', fault | answer⟩ := e.serve op
  · exact .inr ⟨fault, _, rfl⟩
  · exact .inl ⟨answer, _, rfl⟩

/-- A controlled gate in the second row of four, whose control has hopped over it to the last row
and has left a passing wire behind. -/
def hopped : Desk :=
  [Operation.command (.toggleGate ⟨1, 0⟩ (.plain .x)), .command (.toggleControl ⟨1, 0⟩),
    .command (.moveControl ⟨1, 0⟩ .down), .command (.moveControl ⟨1, 0⟩ .down)].foldl Desk.after
    ⟨.blank 4 2, ⟨0, 0⟩⟩

theorem reached_hopped : Reached 4 2 hopped := Reached.start.foldl _

theorem operations_in_bounds_hopped :
    Reached 4 2 hopped ∧
      (hopped.table.cell? ⟨1, 0⟩).map Node.links = some [3] ∧
      hopped.table.cell? ⟨2, 0⟩ = some (.traceMark 2) ∧
      (Operation.command (.moveControl ⟨UInt64.size - 1, 0⟩ .down)).run hopped =
        .error (.refused (.outOfRange ⟨UInt64.size - 1, 0⟩)) hopped.table ∧
      ((∃ answer table,
          (Operation.edit 0 (.attachSecondControl 1 4)).run hopped = .ok answer table) ∨
        ∃ fault table,
          (Operation.edit 0 (.attachSecondControl 1 4)).run hopped =
            .error (.refused fault) table) := by
  have h := (operations_in_bounds (by decide) (by decide) reached_hopped).1
  exact ⟨reached_hopped, by decide +kernel, by decide +kernel,
    (h (.command (.moveControl ⟨UInt64.size - 1, 0⟩ .down))).2 _ rfl (by decide),
    (h (.edit 0 (.attachSecondControl 1 4))).1⟩

end Desk

end QuantumCircuit

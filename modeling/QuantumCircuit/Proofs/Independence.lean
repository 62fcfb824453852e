import QuantumCircuit.Proofs.Table.Agreement

/-!
# Edits of different columns

Edits of different columns do not meet: each comes to the same result before and after the other
one, both orders lead to the same circuit, and neither touches a cell of the other's column.

The statement is about the programs on tables, where it does not come from the way an edit is
given its column: a program could read and write any cell of the table.  By `InTable.run_edit` it
holds of the edits of circuits as well.

* `Table.edits_independent` : edits of different columns can be exchanged, whether they succeed or
  not, and the size of the table never changes.
-/

namespace QuantumCircuit

namespace Table

open InTable

variable {n d : Nat} {t : Table}

/-- No edit changes a cell of another column, or the size of the table. -/
theorem sameElsewhere_after (t : Table) (col : Nat) (e : ColumnEdit) :
    t.SameElsewhere col (t.after col e) :=
  (Local.edit e).elsewhere t

/-- A table that edits lead to is the table of a circuit that the same edits lead to. -/
theorem Written.exists_circuit (hn : n < UInt64.size) (h : t.Written n d) :
    ∃ c : Circuit n d, c.Reachable ∧ t = c.table := by
  induction h with
  | blank => exact ⟨.blank, .blank, Circuit.table_blank.symm⟩
  | after _ col e ih =>
    obtain ⟨c, hc, rfl⟩ := ih
    refine ⟨c.after (.edit col e), hc.after _, ?_⟩
    rw [Table.after, run_edit hn hc.linked, Circuit.after]
    cases c.apply col e <;> rfl

theorem Written.size (h : t.Written n d) :
    t.wires = n ∧ t.depth = d ∧ t.shape = List.replicate n d := by
  induction h with
  | blank =>
    rw [← Circuit.table_blank]
    exact ⟨rfl, rfl, Circuit.shape_table _⟩
  | @after t _ col e ih =>
    have hsame := sameElsewhere_after t col e
    rw [hsame.wires, hsame.depth, hsame.shape]
    exact ih

/-- In a table that edits have led to, with whatever arguments and whether they succeeded or not, an
edit changes no cell of another column, and edits of two different columns can be exchanged: both
orders lead to the same table, and each edit comes to the same result.  The size of the table and
the lengths of its rows are always those that it began with.  If the number of wires fits into a
machine word, then the table is that of a circuit, and its edits are those of the circuit. -/
theorem edits_independent (h : t.Written n d) :
    (t.wires = n ∧ t.depth = d ∧ t.shape = List.replicate n d) ∧
    (∀ col e,
      (t.after col e).wires = n ∧ (t.after col e).depth = d ∧
      (t.after col e).shape = List.replicate n d ∧
      ∀ cell : Cell, cell.col ≠ col → (t.after col e).cell? cell = t.cell? cell) ∧
    (∀ col col' e e', col ≠ col' →
      (t.after col e).after col' e' = (t.after col' e').after col e ∧
      (t.after col e).result col' e' = t.result col' e' ∧
      (t.after col' e').result col e = t.result col e) ∧
    (n < UInt64.size → ∃ c : Circuit n d, c.Reachable ∧ t = c.table ∧
      ∀ col e, (edit col e).run t = seen c (c.apply col e)) := by
  refine ⟨h.size, fun col e => ?_, fun col col' e e' hne => ?_, fun hn => ?_⟩
  · obtain ⟨hwires, hdepth, hshape⟩ := (h.after col e).size
    exact ⟨hwires, hdepth, hshape, (sameElsewhere_after t col e).cell?⟩
  · have he : Local col (edit col e) := .edit e
    have he' : Local col' (edit col' e') := .edit e'
    exact ⟨he.comm he' hne t, he.result_after he' hne t, he'.result_after he hne.symm t⟩
  · obtain ⟨c, hc, rfl⟩ := h.exists_circuit hn
    exact ⟨c, hc, rfl, run_edit hn hc.linked⟩

/-- A controlled gate in each of two columns, both with their control in the top row. -/
def paired : Table :=
  ((blank 4 2).after 0 (.place 1 { Node.ofSymbol .x with control := some 0 })).after 1
    (.place 3 { Node.ofSymbol .x with control := some 0 })

theorem written_paired : paired.Written 4 2 := (Written.blank.after _ _).after _ _

/-- One control hops over its gate, the other one cannot leave the top row. -/
theorem edits_independent_paired :
    paired.Written 4 2 ∧
      paired.result 0 (.moveControl 1 .down) = .ok (some 2) ∧
      paired.result 1 (.moveControl 3 .up) = .error (.refused (.blocked ⟨3, 1⟩)) ∧
      paired.after 0 (.moveControl 1 .down) ≠ paired ∧
      (paired.after 0 (.moveControl 1 .down)).after 1 (.moveControl 3 .up) =
        (paired.after 1 (.moveControl 3 .up)).after 0 (.moveControl 1 .down) ∧
      (paired.after 0 (.moveControl 1 .down)).result 1 (.moveControl 3 .up) =
        .error (.refused (.blocked ⟨3, 1⟩)) ∧
      (paired.after 1 (.moveControl 3 .up)).result 0 (.moveControl 1 .down) = .ok (some 2) := by
  have hmoved : paired.result 0 (.moveControl 1 .down) = .ok (some 2) := by decide +kernel
  have hblocked : paired.result 1 (.moveControl 3 .up) = .error (.refused (.blocked ⟨3, 1⟩)) := by
    decide +kernel
  have h := (edits_independent written_paired).2.2.1 0 1 (.moveControl 1 .down)
    (.moveControl 3 .up) (by decide)
  exact ⟨written_paired, hmoved, hblocked, by decide +kernel, h.1, h.2.1.trans hblocked,
    h.2.2.trans hmoved⟩

end Table

end QuantumCircuit

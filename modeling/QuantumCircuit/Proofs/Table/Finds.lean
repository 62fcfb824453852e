import QuantumCircuit.Proofs.Table.OfCircuit

/-!
# Programs that only look

What the programs find that only look at the table of a circuit (`InTable.Finds`): each scan finds
what the scan of the column finds, and nothing is changed by it.

The programs read cells of the column only, and they number the rows on both sides of a row of the
column, so they need the column to be there and the number of wires to fit into a machine word.
-/

namespace QuantumCircuit

namespace Column

/-- The rows strictly between two others. -/
def between (a b : Nat) : List Nat := List.range' (min a b + 1) (max a b - (min a b + 1))

theorem mem_between {a b row : Nat} : row ∈ between a b ↔ isBetween a b row = true := by
  rw [between, List.mem_range'_1, isBetween_iff]
  omega

theorem contains_between (a b row : Nat) : (between a b).contains row = isBetween a b row := by
  rw [Bool.eq_iff_iff, List.contains_iff_mem, mem_between]

end Column

namespace InTable

variable {n d : Nat} {α β : Type}

/-- The program succeeds with `a` and changes nothing. -/
def Finds (t : Table) (p : InTable α) (a : α) : Prop := p.run t = .ok a t

namespace Finds

variable {t : Table}

theorem pure (a : α) : Finds t (Pure.pure a) a := rfl

theorem run_bind {p : InTable α} {a : α} (h : Finds t p a) (k : α → InTable β) :
    (p >>= k).run t = (k a).run t := by
  rw [EStateM.run_bind, h]

theorem bind {p : InTable α} {k : α → InTable β} {a : α} {b : β} (h : Finds t p a)
    (hk : Finds t (k a) b) : Finds t (p >>= k) b :=
  (h.run_bind k).trans hk

theorem ite {p q : InTable α} {a b : α} {b' : Bool} (hp : b' = true → Finds t p a)
    (hq : b' = false → Finds t q b) :
    Finds t (if b' = true then p else q) (if b' = true then a else b) := by
  cases b'
  · exact hq rfl
  · exact hp rfl

theorem anyM {f : Nat → InTable Bool} {g : Nat → Bool} {rows : List Nat}
    (h : ∀ r ∈ rows, Finds t (f r) (g r)) : Finds t (rows.anyM f) (rows.any g) := by
  induction rows with
  | nil => exact pure _
  | cons r rest ih =>
    refine (h r List.mem_cons_self).bind ?_
    rw [List.any_cons]
    cases g r
    · exact ih fun r hr => h r (List.mem_cons_of_mem _ hr)
    · exact pure _

theorem findM? {f : Nat → InTable Bool} {g : Nat → Bool} {rows : List Nat}
    (h : ∀ r ∈ rows, Finds t (f r) (g r)) : Finds t (rows.findM? f) (rows.find? g) := by
  induction rows with
  | nil => exact pure _
  | cons r rest ih =>
    refine (h r List.mem_cons_self).bind ?_
    rw [List.find?_cons]
    cases g r
    · exact ih fun r hr => h r (List.mem_cons_of_mem _ hr)
    · exact pure _

theorem collect {f : Nat → InTable (List α)} {g : Nat → List α} {rows : List Nat}
    (h : ∀ r ∈ rows, Finds t (f r) (g r)) :
    Finds t (InTable.collect f rows) (rows.flatMap g) := by
  induction rows with
  | nil => exact pure _
  | cons r rest ih =>
    exact (h r List.mem_cons_self).bind <|
      (ih fun r hr => h r (List.mem_cons_of_mem _ hr)).bind (pure _)

/-! ### Scans of a column -/

section

variable {c : Circuit n d} {col : Nat} {x : Column n}

theorem read (hcol : col < d) {row : Nat} (hrow : row < n) :
    Finds (c.tableWith col x) (InTable.read ⟨row, col⟩) (x.node row) := by
  unfold Finds InTable.read
  rw [EStateM.run_bind, EStateM.run_get]
  dsimp only
  rw [Circuit.cell?_tableWith hcol hrow]
  rfl

theorem wires : Finds (c.tableWith col x) InTable.wires n := rfl

theorem findRow? (hcol : col < d) (test : Nat → Node → Bool) :
    Finds (c.tableWith col x) (InTable.findRow? col test)
      (x.rows.find? fun row => test row (x.node row)) :=
  wires.bind <| findM? fun _ hrow =>
    (read hcol (List.mem_range.1 hrow)).bind (pure _)

theorem controller? (hcol : col < d) (row : Nat) :
    Finds (c.tableWith col x) (InTable.controller? ⟨row, col⟩) (x.controller? row) :=
  findRow? hcol _

theorem reading (hcol : col < d) {row : Nat} (hrow : row < n) :
    Finds (c.tableWith col x) (InTable.reading ⟨row, col⟩) (x.reading row) := by
  unfold Column.reading Column.isPartner
  rw [← List.isSome_find?]
  exact (read hcol hrow).bind <| ite (fun _ => pure _) fun _ =>
    (controller? hcol row).bind <| ite (fun _ => pure _) fun _ =>
      (findRow? hcol _).bind <| ite (fun _ => pure _) fun _ => pure _

theorem isFree (hcol : col < d) {row : Nat} (hrow : row < n) :
    Finds (c.tableWith col x) (InTable.isFree ⟨row, col⟩) (x.isFree row) :=
  (reading hcol hrow).bind (pure _)

theorem below {t : Table} {row : Nat} (h : row + 1 < UInt64.size) :
    Finds t (InTable.below row) (row + 1) := by
  unfold InTable.below
  rw [if_pos h]
  exact pure _

theorem above {t : Table} {row : Nat} (h : row ≠ 0) :
    Finds t (InTable.above row) (row - 1) := by
  unfold InTable.above
  rw [if_neg h]
  exact pure _

theorem between {t : Table} {a : Nat} (h : a + 1 < UInt64.size) (b : Nat) :
    Finds t (InTable.between a b) (Column.between a b) :=
  (below (by omega)).bind (pure _)

theorem isPassed {t : Table} {row : Nat} (h : row + 1 < UInt64.size) (links : List Nat)
    (r : Nat) :
    Finds t (InTable.isPassed row links r) (links.any fun link => Column.isBetween row link r) := by
  refine anyM fun link _ => (between h link).bind ?_
  rw [Column.contains_between]
  exact pure _

theorem isSpanned (hcol : col < d) (hn : n < UInt64.size) (row r : Nat) :
    Finds (c.tableWith col x) (InTable.isSpanned ⟨row, col⟩ r) (x.isSpanned row r) := by
  refine wires.bind <| anyM fun other hother => ?_
  have hlt := List.mem_range.1 hother
  by_cases hsame : other = row
  · rw [if_pos hsame, hsame, bne_self_eq_false, Bool.false_and]
    exact pure _
  · rw [if_neg hsame, bne_iff_ne.2 hsame, Bool.true_and]
    exact (read hcol hlt).bind (isPassed (by omega) _ _)

/-! ### Moving a control -/

theorem nextRow? (hn : n < UInt64.size) {row : Nat} (hrow : row < n) (d' : Direction) :
    Finds (c.tableWith col x) (InTable.nextRow? row d') (d'.nextRow? n row) := by
  cases d' with
  | up => exact pure _
  | down => exact (below (by omega)).bind (pure _)
  | left => exact pure _
  | right => exact pure _

theorem controlStep? (hn : n < UInt64.size) {gate control : Nat} (hcontrol : control < n)
    (d' : Direction) :
    Finds (c.tableWith col x) (InTable.controlStep? gate control d')
      (Column.controlStep? n gate control d') := by
  refine (nextRow? hn hcontrol d').bind ?_
  unfold Column.controlStep?
  cases hnext : d'.nextRow? n control with
  | none => exact pure _
  | some row =>
    rw [Option.bind_some]
    dsimp only
    split
    · exact nextRow? hn (Direction.nextRow?_lt hcontrol hnext) d'
    · exact pure _

theorem gap? (hn : n < UInt64.size) {gate row : Nat} (hrow : row < n) (d' : Direction) :
    Finds (c.tableWith col x) (InTable.gap? gate row d') (Column.gap? gate row d') := by
  cases d' with
  | up =>
    unfold InTable.gap? Column.gap?
    by_cases hlt : row < gate
    · rw [if_pos hlt]
      refine (below (by omega)).bind ?_
      simp only [hlt, decide_true, Bool.true_and]
      exact pure _
    · rw [if_neg hlt]
      simp only [hlt, decide_false, Bool.false_and]
      exact pure _
  | down =>
    unfold InTable.gap? Column.gap?
    by_cases hlt : gate < row
    · rw [if_pos hlt]
      refine (above (by omega)).bind ?_
      simp only [hlt, decide_true, Bool.true_and]
      exact pure _
    · rw [if_neg hlt]
      simp only [hlt, decide_false, Bool.false_and]
      exact pure _
  | left => exact pure _
  | right => exact pure _

end

end Finds

end InTable

end QuantumCircuit

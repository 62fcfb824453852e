import QuantumCircuit.Proofs.Table.Basic

/-!
# Programs that stay in one column

A program on a table is `Local` to a column if it leaves all other columns as they are, and if what
it returns and what it leaves in its own column depends on nothing but that column.  It makes no
difference whether the program succeeds, is refused, or stops for another reason.

Reading and storing a cell is local to the column of the cell (`Local.read`, `Local.store`), and
programs made of local programs are local (`Local.bind` and the lemmas about lists), so every edit
is (`Local.edit`).  Programs that are local to different columns can be exchanged
(`Local.comm`, `Local.result_after`).
-/

namespace QuantumCircuit

namespace Table

/-! ### Tables that agree in a column, or everywhere else -/

/-- The tables have the same size and the same cells in one column. -/
structure SameColumn (col : Nat) (t u : Table) : Prop where
  wires : u.wires = t.wires
  depth : u.depth = t.depth
  cell? : ∀ row, u.cell? ⟨row, col⟩ = t.cell? ⟨row, col⟩

/-- The tables have the same size and shape and the same cells outside one column. -/
structure SameElsewhere (col : Nat) (t u : Table) : Prop where
  wires : u.wires = t.wires
  depth : u.depth = t.depth
  shape : u.shape = t.shape
  cell? : ∀ cell : Cell, cell.col ≠ col → u.cell? cell = t.cell? cell

variable {col col' : Nat} {t u v : Table}

theorem SameElsewhere.refl : t.SameElsewhere col t := ⟨rfl, rfl, rfl, fun _ _ => rfl⟩

theorem SameElsewhere.trans (h : t.SameElsewhere col u) (h' : u.SameElsewhere col v) :
    t.SameElsewhere col v :=
  ⟨h'.wires.trans h.wires, h'.depth.trans h.depth, h'.shape.trans h.shape,
    fun cell hcell => (h'.cell? cell hcell).trans (h.cell? cell hcell)⟩

theorem SameElsewhere.sameColumn (h : t.SameElsewhere col u) (hne : col' ≠ col) :
    t.SameColumn col' u :=
  ⟨h.wires, h.depth, fun row => h.cell? ⟨row, col'⟩ hne⟩

/-- A table is determined by its size, its shape and its cells. -/
theorem ext_cell (hwires : t.wires = u.wires) (hdepth : t.depth = u.depth)
    (hshape : t.shape = u.shape) (hcell : ∀ cell, t.cell? cell = u.cell? cell) : t = u := by
  obtain ⟨wires, depth, rows⟩ := t
  obtain ⟨wires', depth', rows'⟩ := u
  have hlength : rows.length = rows'.length := by simpa [shape] using congrArg List.length hshape
  have hrows : rows = rows' := by
    refine List.ext_getElem hlength fun row h h' => List.ext_getElem? fun col => ?_
    simpa [Table.cell?, h, h'] using hcell ⟨row, col⟩
  simp_all

theorem shape_set (t : Table) (cell : Cell) (x : Node) : (t.set cell x).shape = t.shape := by
  refine List.ext_getElem? fun row => ?_
  simp only [shape, set, List.getElem?_map, List.getElem?_modify]
  cases t.rows[row]? with
  | none => rfl
  | some nodes =>
    by_cases h : cell.row = row <;> simp [h]

theorem cell?_set {cell : Cell} (h : (t.cell? cell).isSome = true) (x : Node) (other : Cell) :
    (t.set cell x).cell? other = if other = cell then some x else t.cell? other := by
  obtain ⟨row, col⟩ := cell
  obtain ⟨row', col'⟩ := other
  simp only [Table.cell?, set, List.getElem?_modify, Cell.mk.injEq] at h ⊢
  by_cases hrow : row = row'
  · subst hrow
    cases hr : t.rows[row]? with
    | none => simp [hr] at h
    | some nodes =>
      have hcol : col < nodes.length := by simpa [hr] using h
      by_cases hc : col = col'
      · subst hc
        simp [hcol]
      · simp [hc, Ne.symm hc]
  · have : ¬ (row' = row ∧ col' = col) := fun h => hrow h.1.symm
    simp [hrow, this]

end Table

namespace InTable

open Table InPlace

/-- The program leaves the other columns alone, and what it does in its own column and what it
returns depends on that column only. -/
structure Local {α : Type} (col : Nat) (p : InTable α) : Prop where
  elsewhere : ∀ t : Table, t.SameElsewhere col (outcome (p.run t)).1
  column : ∀ {t u : Table}, t.SameColumn col u →
    (outcome (p.run t)).1.SameColumn col (outcome (p.run u)).1
  result : ∀ {t u : Table}, t.SameColumn col u →
    (outcome (p.run u)).2 = (outcome (p.run t)).2

namespace Local

variable {α β : Type} {col : Nat}

/-! ### Composition -/

/-- A program that changes nothing is local if its result depends on its column only. -/
theorem of_unchanged {p : InTable α} (f : Table → Except Stop α)
    (hrun : ∀ t, outcome (p.run t) = (t, f t))
    (hf : ∀ {t u : Table}, t.SameColumn col u → f u = f t) : Local col p where
  elsewhere t := by
    rw [hrun]
    exact .refl
  column h := by rwa [hrun, hrun]
  result h := by rw [hrun, hrun, hf h]

theorem pure (a : α) : Local col (Pure.pure a : InTable α) :=
  of_unchanged (fun _ => .ok a) (fun _ => rfl) fun _ => rfl

theorem throw (stop : Stop) : Local col (MonadExcept.throw stop : InTable α) :=
  of_unchanged (fun _ => .error stop) (fun _ => rfl) fun _ => rfl

theorem refuse (fault : EditError Cell) : Local col (InTable.refuse fault : InTable α) :=
  throw _

theorem bind {p : InTable α} {k : α → InTable β} (hp : Local col p) (hk : ∀ a, Local col (k a)) :
    Local col (p >>= k) where
  elsewhere t := by
    have h := hp.elsewhere t
    rw [EStateM.run_bind]
    cases hrun : p.run t with
    | error e t' => rwa [hrun] at h
    | ok a t' =>
      rw [hrun] at h
      exact h.trans ((hk a).elsewhere t')
  column {t u} heq := by
    have h := hp.column heq
    have hr := hp.result heq
    rw [EStateM.run_bind, EStateM.run_bind]
    -- The first programs end in the same way, so the second ones are the same.
    cases ht : p.run t <;> cases hu : p.run u <;> rw [ht, hu] at h hr <;> cases hr
    · exact (hk _).column h
    · exact h
  result {t u} heq := by
    have h := hp.column heq
    have hr := hp.result heq
    rw [EStateM.run_bind, EStateM.run_bind]
    cases ht : p.run t <;> cases hu : p.run u <;> rw [ht, hu] at h hr <;> cases hr
    · exact (hk _).result h
    · rfl

theorem map {p : InTable α} (f : α → β) (hp : Local col p) : Local col (f <$> p) := by
  rw [map_eq_pure_bind]
  exact hp.bind fun a => pure (f a)

theorem ite {p q : InTable α} {c : Prop} [Decidable c] (hp : Local col p) (hq : Local col q) :
    Local col (if c then p else q) := by
  split
  · exact hp
  · exact hq

theorem forM {f : Nat → InTable Unit} (h : ∀ a, Local col (f a)) (rows : List Nat) :
    Local col (rows.forM f) := by
  induction rows with
  | nil => exact pure _
  | cons row rest ih => exact (h row).bind fun _ => ih

theorem collect {f : Nat → InTable (List α)} (h : ∀ a, Local col (f a)) (rows : List Nat) :
    Local col (InTable.collect f rows) := by
  induction rows with
  | nil => exact pure _
  | cons row rest ih => exact (h row).bind fun _ => ih.bind fun _ => pure _

theorem anyM {f : Nat → InTable Bool} (h : ∀ a, Local col (f a)) (rows : List Nat) :
    Local col (rows.anyM f) := by
  induction rows with
  | nil => exact pure _
  | cons row rest ih =>
    refine (h row).bind fun found => ?_
    cases found
    · exact ih
    · exact pure _

theorem findM? {f : Nat → InTable Bool} (h : ∀ a, Local col (f a)) (rows : List Nat) :
    Local col (rows.findM? f) := by
  induction rows with
  | nil => exact pure _
  | cons row rest ih =>
    refine (h row).bind fun found => ?_
    cases found
    · exact ih
    · exact pure _

/-! ### Cells and numbers -/

theorem wires : Local col InTable.wires :=
  of_unchanged (fun t => .ok t.wires) (fun _ => rfl) fun h => by rw [h.wires]

theorem check (cell : Cell) : Local col (InTable.check cell) := by
  refine of_unchanged (fun t => if cell.row < t.wires && cell.col < t.depth then .ok ()
    else .error (.refused (.outOfRange cell))) (fun t => ?_) fun h => by rw [h.wires, h.depth]
  unfold InTable.check
  rw [EStateM.run_bind, EStateM.run_get]
  dsimp only
  split <;> rfl

theorem read (row : Nat) : Local col (InTable.read ⟨row, col⟩) := by
  refine of_unchanged (fun t => (t.cell? ⟨row, col⟩).elim (.error (.outside ⟨row, col⟩)) .ok)
    (fun t => ?_) fun h => by rw [h.cell?]
  unfold InTable.read
  rw [EStateM.run_bind, EStateM.run_get]
  dsimp only
  cases t.cell? ⟨row, col⟩ <;> rfl

theorem run_store (cell : Cell) (x : Node) (t : Table) :
    outcome ((InTable.store cell x).run t) =
      if (t.cell? cell).isSome then (t.set cell x, .ok ()) else (t, .error (.outside cell)) := by
  unfold InTable.store
  rw [EStateM.run_bind, EStateM.run_get]
  dsimp only
  split <;> rfl

theorem store (row : Nat) (x : Node) : Local col (InTable.store ⟨row, col⟩ x) where
  elsewhere t := by
    rw [run_store]
    split
    · rename_i h
      refine ⟨rfl, rfl, shape_set .., fun cell hcell => ?_⟩
      rw [cell?_set h, if_neg fun heq => hcell (congrArg Cell.col heq)]
    · exact .refl
  column {t u} heq := by
    rw [run_store, run_store, heq.cell?]
    split
    · rename_i h
      have h' : (u.cell? ⟨row, col⟩).isSome = true := by rwa [heq.cell?]
      refine ⟨heq.wires, heq.depth, fun r => ?_⟩
      rw [cell?_set h, cell?_set h', heq.cell?]
    · exact heq
  result {t u} heq := by
    rw [run_store, run_store, heq.cell?]
    split <;> rfl

theorem below (row : Nat) : Local col (InTable.below row) := ite (pure _) (throw _)

theorem above (row : Nat) : Local col (InTable.above row) := ite (throw _) (pure _)

theorem between (a b : Nat) : Local col (InTable.between a b) := (below _).bind fun _ => pure _

/-! ### Scans -/

theorem findRow? (test : Nat → Node → Bool) : Local col (InTable.findRow? col test) :=
  wires.bind fun _ => findM? (fun row => (read row).bind fun _ => pure _) _

theorem reading (row : Nat) : Local col (InTable.reading ⟨row, col⟩) :=
  (read row).bind fun _ => ite (pure _) <| (findRow? _).bind fun _ => ite (pure _) <|
    (findRow? _).bind fun _ => ite (pure _) (pure _)

theorem isFree (row : Nat) : Local col (InTable.isFree ⟨row, col⟩) :=
  (reading row).bind fun _ => pure _

theorem refuseOccupied (row : Nat) :
    Local col (InTable.refuseOccupied ⟨row, col⟩ : InTable α) :=
  (reading row).bind fun _ => refuse _

/-! ### Placements -/

theorem isPassed (row : Nat) (links : List Nat) (r : Nat) :
    Local col (InTable.isPassed row links r) :=
  anyM (fun _ => (between _ _).bind fun _ => pure _) _

theorem isSpanned (row r : Nat) : Local col (InTable.isSpanned ⟨row, col⟩ r) :=
  wires.bind fun _ => anyM (fun other => ite (pure _) <|
    (read other).bind fun _ => isPassed _ _ _) _

theorem release (row : Nat) (keep : List Nat) : Local col (InTable.release ⟨row, col⟩ keep) := by
  refine (read row).bind fun old => ?_
  refine (collect (fun r => (read r).bind fun _ => pure _) _).bind fun marks => ?_
  refine (collect (fun link => (between _ _).bind fun rows => collect (fun r => ?_) _) _).bind
    fun traces => forM (fun r => store r _) _
  exact (read r).bind fun _ => ite (pure _) <| (isPassed _ _ _).bind fun _ => ite (pure _) <|
    (isSpanned _ _).bind fun _ => pure _

theorem checkLinks (taken links : List Nat) : Local col (InTable.checkLinks col taken links) := by
  induction links generalizing taken with
  | nil => exact pure _
  | cons link rest ih => exact (check _).bind fun _ => ite (refuseOccupied link) (ih _)

theorem checkOwners (except links : List Nat) :
    Local col (InTable.checkOwners col except links) :=
  forM (fun link => (findRow? _).bind fun _ => ite (refuseOccupied link) (pure _)) _

theorem checkPlace (row : Nat) (x : Node) : Local col (InTable.checkPlace ⟨row, col⟩ x) :=
  (check _).bind fun _ => ite (refuse _) <| (checkLinks _ _).bind fun _ => checkOwners _ _

theorem place (row : Nat) (x : Node) : Local col (InTable.place ⟨row, col⟩ x) :=
  (checkPlace row x).bind fun _ => (forM (fun r => release r _) _).bind fun _ =>
    (store row _).bind fun _ => forM (fun r => store r _) _

theorem clear (row : Nat) : Local col (InTable.clear ⟨row, col⟩) := place row _

/-! ### Edits -/

theorem relink (gate row : Nat) (x : Node) : Local col (InTable.relink gate row col x) :=
  (isFree row).bind fun _ => ite (refuseOccupied row) <| (place gate x).bind fun _ => clear row

theorem attachControl (gate row : Nat) : Local col (InTable.attachControl gate row col) :=
  (check _).bind fun _ => (check _).bind fun _ => (read gate).bind fun _ =>
    ite (relink gate row _) (refuse _)

theorem attachSecondControl (gate row : Nat) :
    Local col (InTable.attachSecondControl gate row col) :=
  (check _).bind fun _ => (check _).bind fun _ => (read gate).bind fun _ =>
    ite (relink gate row _) (refuse _)

theorem attachPartner (gate row : Nat) : Local col (InTable.attachPartner gate row col) :=
  (check _).bind fun _ => (check _).bind fun _ => (read gate).bind fun _ =>
    ite (relink gate row _) (refuse _)

theorem detachControls (gate : Nat) : Local col (InTable.detachControls gate col) :=
  (check _).bind fun _ => (read gate).bind fun _ => ite (pure _) (place gate _)

theorem nextRow? (row : Nat) (d : Direction) : Local col (InTable.nextRow? row d) := by
  cases d with
  | up => exact pure _
  | down => exact (below row).bind fun _ => wires.bind fun _ => pure _
  | left => exact pure _
  | right => exact pure _

theorem controlStep? (gate control : Nat) (d : Direction) :
    Local col (InTable.controlStep? gate control d) := by
  refine (nextRow? control d).bind fun next => ?_
  cases next with
  | none => exact pure _
  | some row => exact ite (nextRow? row d) (pure _)

theorem gap? (gate row : Nat) (d : Direction) : Local col (InTable.gap? gate row d) := by
  cases d with
  | up => exact ite ((below row).bind fun _ => pure _) (pure _)
  | down => exact ite ((above row).bind fun _ => pure _) (pure _)
  | left => exact pure _
  | right => exact pure _

theorem fillGap (row : Nat) : Local col (InTable.fillGap ⟨row, col⟩) :=
  (reading row).bind fun _ => ite (place row _) (pure _)

theorem moveControl (gate : Nat) (d : Direction) : Local col (InTable.moveControl gate col d) := by
  refine (check _).bind fun _ => (read gate).bind fun old => ?_
  split
  · refine (controlStep? _ _ _).bind fun next => ?_
    cases next with
    | none => exact refuse _
    | some row =>
      refine (isFree row).bind fun _ => ite ?_ (refuse _)
      refine (place gate _).bind fun _ => (clear row).bind fun _ => (gap? _ _ _).bind fun gap => ?_
      cases gap with
      | none => exact (pure _).bind fun _ => pure _
      | some gap => exact (fillGap gap).bind fun _ => pure _
  · exact refuse _

theorem deleteGate (gate : Nat) : Local col (InTable.deleteGate gate col) :=
  (read gate).bind fun _ => forM (fun row => clear row) _

theorem delete (row : Nat) : Local col (InTable.delete ⟨row, col⟩) := by
  refine (check _).bind fun _ => (reading row).bind fun shown => ?_
  dsimp only
  split
  · exact pure _
  · refine (findRow? _).bind fun gate => ?_
    cases gate with
    | none => exact refuse _
    | some gate => exact deleteGate gate
  · exact refuse _
  · exact (read row).bind fun _ => ite (refuse _) (deleteGate row)

theorem rotate (row : Nat) (delta : Binary64) : Local col (InTable.rotate ⟨row, col⟩ delta) :=
  (check _).bind fun _ => (read row).bind fun _ => (reading row).bind fun _ =>
    ite (place row _) (refuse _)

/-- Every edit stays in its column. -/
theorem edit (e : ColumnEdit) : Local col (InTable.edit col e) := by
  cases e with
  | place row x => exact (place row x).map _
  | attachControl gate row => exact (attachControl gate row).map _
  | attachSecondControl gate row => exact (attachSecondControl gate row).map _
  | detachControls gate => exact (detachControls gate).map _
  | moveControl gate d => exact (moveControl gate d).map _
  | attachPartner gate row => exact (attachPartner gate row).map _
  | delete row => exact (delete row).map _
  | rotate row delta => exact (rotate row delta).map _

/-! ### Exchange -/

variable {col' : Nat} {p : InTable α} {q : InTable β}

/-- A program in one column returns the same after a program in another one. -/
theorem result_after (hp : Local col p) (hq : Local col' q) (hne : col ≠ col') (t : Table) :
    (outcome (q.run (outcome (p.run t)).1)).2 = (outcome (q.run t)).2 :=
  hq.result ((hp.elsewhere t).sameColumn hne.symm)

/-- Programs in different columns lead to the same table in either order. -/
theorem comm (hp : Local col p) (hq : Local col' q) (hne : col ≠ col') (t : Table) :
    (outcome (q.run (outcome (p.run t)).1)).1 = (outcome (p.run (outcome (q.run t)).1)).1 := by
  have hp₁ := hp.elsewhere t
  have hq₁ := hq.elsewhere t
  have hq₂ := hq.elsewhere (outcome (p.run t)).1
  have hp₂ := hp.elsewhere (outcome (q.run t)).1
  -- In its own column each program does the same before and after the other one.
  have hcol := hp.column (hq₁.sameColumn hne)
  have hcol' := hq.column (hp₁.sameColumn hne.symm)
  refine ext_cell ?_ ?_ ?_ fun cell => ?_
  · rw [hq₂.wires, hp₁.wires, hp₂.wires, hq₁.wires]
  · rw [hq₂.depth, hp₁.depth, hp₂.depth, hq₁.depth]
  · rw [hq₂.shape, hp₁.shape, hp₂.shape, hq₁.shape]
  · obtain ⟨row, k⟩ := cell
    by_cases hk : k = col
    · rw [hk, hq₂.cell? ⟨row, col⟩ hne, hcol.cell?]
    by_cases hk' : k = col'
    · rw [hk', hp₂.cell? ⟨row, col'⟩ hne.symm, hcol'.cell?]
    · rw [hq₂.cell? ⟨row, k⟩ hk', hp₁.cell? ⟨row, k⟩ hk, hp₂.cell? ⟨row, k⟩ hk,
        hq₁.cell? ⟨row, k⟩ hk']

end Local

end InTable

end QuantumCircuit

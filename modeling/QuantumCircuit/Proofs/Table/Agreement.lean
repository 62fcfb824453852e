import Mathlib.Tactic.SplitIfs
import QuantumCircuit.Proofs.Atomicity
import QuantumCircuit.Proofs.Table.Finds

/-!
# Edits of a table and of a circuit

An edit of the table of a circuit does there what the edit of the circuit does: it comes to the same
result, and the table that it leaves is the table of the circuit after the edit
(`InTable.run_edit`).  In particular the programs on tables never name a cell that is not there, and
never count too far, if the number of wires fits into a machine word.

Each program is compared with the program on a column that it follows (`InTable.Follows`).  Of the
column it must be known that its links stay in it, since the programs take rows from the links
(`InTable.Ready`); what has been placed keeps it so (`InTable.Ready.place`).
-/

namespace QuantumCircuit

namespace Column

variable {n : Nat} {c : Column n} {row r : Nat} {keep : List Nat}

/-- The rows of the control marks that a node left. -/
def staleMarks (c : Column n) (row : Nat) : List Nat :=
  (c.node row).controls.flatMap fun r => if (c.node r).kind == .control then [r] else []

/-- The rows of the passing wires that only a node needed. -/
def staleTraces (c : Column n) (row : Nat) (keep : List Nat) : List Nat :=
  (c.node row).links.flatMap fun link => (between row link).flatMap fun r =>
    if (c.node r).kind != .trace then []
    else if keep.any fun kept => isBetween row kept r then []
    else if c.isSpanned row r then [] else [r]

theorem mem_staleMarks :
    r ∈ c.staleMarks row ↔ r ∈ (c.node row).controls ∧ (c.node r).symbol = .control := by
  rw [← Node.kind_eq_plain_iff (by rfl : Symbol.isNull .control = true), staleMarks,
    List.mem_flatMap]
  constructor
  · rintro ⟨q, hq, hmem⟩
    split at hmem
    · rename_i hkind
      obtain rfl := List.mem_singleton.1 hmem
      exact ⟨hq, eq_of_beq hkind⟩
    · cases hmem
  · rintro ⟨hr, hkind⟩
    refine ⟨r, hr, ?_⟩
    rw [if_pos (beq_iff_eq.2 hkind)]
    exact List.mem_singleton_self r

theorem mem_staleTraces :
    r ∈ c.staleTraces row keep ↔
      (∃ link ∈ (c.node row).links, isBetween row link r) ∧ (c.node r).symbol = .trace ∧
        (∀ kept ∈ keep, ¬ isBetween row kept r) ∧ c.isSpanned row r = false := by
  rw [← Node.kind_eq_plain_iff (by rfl : Symbol.isNull .trace = true), staleTraces,
    List.mem_flatMap]
  simp only [List.mem_flatMap, mem_between]
  constructor
  · rintro ⟨link, hlink, q, hq, hmem⟩
    split_ifs at hmem with hkind hkeep hspan
    · cases hmem
    · cases hmem
    · cases hmem
    · obtain rfl := List.mem_singleton.1 hmem
      refine ⟨⟨link, hlink, hq⟩, by simpa using hkind, fun kept hkept hb => hkeep ?_,
        by simpa using hspan⟩
      exact List.any_eq_true.2 ⟨kept, hkept, hb⟩
  · rintro ⟨⟨link, hlink, hb⟩, hkind, hkeep, hspan⟩
    refine ⟨link, hlink, r, hb, ?_⟩
    have hnone : (keep.any fun kept => isBetween row kept r) = false := by simpa using hkeep
    simp [hkind, hnone, hspan]

/-- These rows are all that a release empties. -/
theorem mem_stale :
    r ∈ c.staleMarks row ++ c.staleTraces row keep ↔ c.isStale row keep r = true := by
  rw [List.mem_append, isStale_iff, mem_staleMarks, mem_staleTraces]

end Column

namespace InTable

open InPlace

variable {n d : Nat} {α β : Type}

/-! ### Marks that are taken away -/

section

variable {c : Circuit n d} {col : Nat} {x : Column n}

theorem run_store (hcol : col < d) {row : Nat} (hrow : row < n) (y : Node) :
    (store ⟨row, col⟩ y).run (c.tableWith col x) = .ok () (c.tableWith col (x.put row y)) := by
  unfold store
  rw [EStateM.run_bind, EStateM.run_get]
  dsimp only
  rw [Circuit.cell?_tableWith hcol hrow, ← Circuit.set_tableWith hcol hrow]
  rfl

theorem run_forM_store (hcol : col < d) (f : Nat → Node) {rows : List Nat}
    (hrows : ∀ r ∈ rows, r < n) :
    (rows.forM fun r => store ⟨r, col⟩ (f r)).run (c.tableWith col x) =
      .ok () (c.tableWith col (.ofRows fun r => if r ∈ rows then f r else x.node r)) := by
  induction rows generalizing x with
  | nil =>
    have : x = .ofRows fun r => if r ∈ [] then f r else x.node r :=
      Column.ext_node fun r hr => by simp [Column.node_ofRows hr]
    rw [← this]
    rfl
  | cons row rest ih =>
    change (store ⟨row, col⟩ (f row) >>= fun _ =>
      rest.forM fun r => store ⟨r, col⟩ (f r)).run _ = _
    rw [EStateM.run_bind, run_store hcol (hrows row List.mem_cons_self)]
    dsimp only
    rw [ih fun r hr => hrows r (List.mem_cons_of_mem _ hr)]
    congr 2
    refine Column.ext_node fun r hr => ?_
    rw [Column.node_ofRows hr, Column.node_ofRows hr, Column.node_put _ _ _ hr]
    by_cases hmem : r ∈ rest
    · simp [hmem]
    · by_cases heq : r = row <;> simp [hmem, heq]

theorem run_release (hcol : col < d) (hn : n < UInt64.size) {row : Nat} (hrow : row < n)
    (hlt : ∀ link ∈ (x.node row).links, link < n) (keep : List Nat) :
    (release ⟨row, col⟩ keep).run (c.tableWith col x) =
      .ok () (c.tableWith col (x.release row keep)) := by
  have hword : row + 1 < UInt64.size := by omega
  have hmarks : Finds (c.tableWith col x) ((x.node row).controls |> collect fun r => do
      return if (← read ⟨r, col⟩).kind == .control then [r] else []) (x.staleMarks row) :=
    .collect fun r hr => (Finds.read hcol (hlt r (Node.mem_links_of_mem_controls hr))).bind
      (.pure _)
  have htraces : Finds (c.tableWith col x) ((x.node row).links |> collect fun link => do
      (← between row link) |> collect fun r => do
        if (← read ⟨r, col⟩).kind != .trace then return []
        else if ← isPassed row keep r then return []
        else return if ← isSpanned ⟨row, col⟩ r then [] else [r]) (x.staleTraces row keep) := by
    refine .collect fun link hlink => (Finds.between hword link).bind <| .collect fun r hr => ?_
    have hr : r < n := by
      have := Column.isBetween_iff.1 (Column.mem_between.1 hr)
      have := hlt link hlink
      omega
    exact (Finds.read hcol hr).bind <| .ite (fun _ => .pure _) fun _ =>
      (Finds.isPassed hword keep r).bind <| .ite (fun _ => .pure _) fun _ =>
        (Finds.isSpanned hcol hn row r).bind (.pure _)
  have hstale : ∀ r ∈ x.staleMarks row ++ x.staleTraces row keep, r < n := by
    intro r hr
    rcases Column.isStale_iff.1 (Column.mem_stale.1 hr) with
      ⟨hcontrol, -⟩ | ⟨⟨link, hlink, hb⟩, -⟩
    · exact hlt r (Node.mem_links_of_mem_controls hcontrol)
    · have := Column.isBetween_iff.1 hb
      have := hlt link hlink
      omega
  unfold release
  rw [(Finds.read hcol hrow).run_bind]
  dsimp only
  rw [hmarks.run_bind, htraces.run_bind, run_forM_store hcol Node.blank hstale]
  congr 2
  refine Column.ext_node fun r hr => ?_
  simp only [Column.node_ofRows hr, Column.node_release _ _ _ hr, Column.mem_stale]

end

/-! ### Faults of a placement -/

/-- The program is refused with a fault and changes nothing. -/
def Refuses (t : Table) (p : InTable α) (fault : EditError Cell) : Prop :=
  p.run t = .error (.refused fault) t

theorem Refuses.bind {t : Table} {p : InTable α} {fault : EditError Cell} (h : Refuses t p fault)
    (k : α → InTable β) : Refuses t (p >>= k) fault := by
  unfold Refuses at *
  rw [EStateM.run_bind, h]

/-- The program changes nothing, and is refused if the column has a fault. -/
def Checks (c : Circuit n d) (col : Nat) (x : Column n) (p : InTable Unit) :
    Option (EditError Nat) → Prop
  | none => Finds (c.tableWith col x) p ()
  | some fault => Refuses (c.tableWith col x) p (fault.map (⟨·, col⟩))

section

variable {c : Circuit n d} {col : Nat} {x : Column n}

theorem refuses_refuse {t : Table} (fault : EditError Cell) :
    Refuses t (refuse fault : InTable α) fault := rfl

theorem Finds.checks {p : InTable α} {k : α → InTable Unit} {a : α} {f : Option (EditError Nat)}
    (h : Finds (c.tableWith col x) p a) (hk : Checks c col x (k a) f) :
    Checks c col x (p >>= k) f := by
  cases f <;> exact (h.run_bind k).trans hk

theorem Checks.bind {p q : InTable Unit} {f g : Option (EditError Nat)} (hp : Checks c col x p f)
    (hq : f = none → Checks c col x q g) : Checks c col x (p >>= fun _ => q) (f.or g) := by
  cases f with
  | none => exact Finds.checks hp (hq rfl)
  | some fault => exact Refuses.bind hp _

theorem checks_check (hcol : col < d) (row : Nat) :
    Checks c col x (check ⟨row, col⟩) (if n ≤ row then some (.outOfRange row) else none) := by
  have hrun : (check ⟨row, col⟩).run (c.tableWith col x) =
      if row < n && col < d then .ok () (c.tableWith col x)
      else .error (.refused (.outOfRange ⟨row, col⟩)) (c.tableWith col x) := by
    unfold check
    rw [EStateM.run_bind, EStateM.run_get]
    change (if row < n && col < d then Pure.pure () else refuse _ : InTable Unit).run _ = _
    split <;> rfl
  by_cases hrow : n ≤ row
  · rw [if_pos hrow]
    exact hrun.trans (if_neg (by simp [Nat.not_lt.2 hrow]))
  · rw [if_neg hrow]
    exact hrun.trans (if_pos (by simp [hcol, Nat.lt_of_not_le hrow]))

theorem refuses_refuseOccupied (hcol : col < d) {row : Nat} (hrow : row < n) :
    Refuses (c.tableWith col x) (refuseOccupied ⟨row, col⟩ : InTable α)
      ((x.occupied row).map (⟨·, col⟩)) :=
  (Finds.reading hcol hrow).run_bind _

theorem checks_checkLinks (hcol : col < d) (taken links : List Nat) :
    Checks c col x (checkLinks col taken links) (x.linkFault? taken links) := by
  induction links generalizing taken with
  | nil => exact Finds.pure _
  | cons link rest ih =>
    have : x.linkFault? taken (link :: rest) =
        (if n ≤ link then some (.outOfRange link) else none).or
          (if taken.contains link then some (x.occupied link)
          else x.linkFault? (link :: taken) rest) := by
      rw [Column.linkFault?]
      split <;> rfl
    rw [this]
    refine (checks_check hcol link).bind fun hrow => ?_
    have hrow : link < n := by
      by_contra h
      rw [if_pos (Nat.not_lt.1 h)] at hrow
      cases hrow
    split
    · exact refuses_refuseOccupied hcol hrow
    · exact ih _

theorem checks_checkOwners (hcol : col < d) (except : List Nat) {links : List Nat}
    (hlt : ∀ link ∈ links, link < n) :
    Checks c col x (checkOwners col except links)
      ((links.find? (x.isLinked except)).map x.occupied) := by
  induction links with
  | nil => exact Finds.pure _
  | cons link rest ih =>
    have hcons : ((link :: rest).find? (x.isLinked except)).map x.occupied =
        (if x.isLinked except link then some (x.occupied link) else none).or
          ((rest.find? (x.isLinked except)).map x.occupied) := by
      rw [List.find?_cons]
      cases x.isLinked except link <;> rfl
    rw [hcons, Column.isLinked, ← List.isSome_find?]
    refine Checks.bind ?_ fun _ => ih fun l hl => hlt l (List.mem_cons_of_mem _ hl)
    refine (Finds.findRow? hcol _).checks ?_
    split
    · exact refuses_refuseOccupied hcol (hlt link List.mem_cons_self)
    · exact Finds.pure _

theorem checks_checkPlace (hcol : col < d) (row : Nat) (y : Node) :
    Checks c col x (checkPlace ⟨row, col⟩ y) (x.placeFault? row y) := by
  have : x.placeFault? row y = (if n ≤ row then some (.outOfRange row) else none).or
      (if !y.controlsAct then some (.uncontrollable y.kind)
        else (x.linkFault? [row] y.links).or
          ((y.links.find? (x.isLinked (y.controls ++ [row]))).map x.occupied)) := by
    rw [Column.placeFault?]
    split <;> rfl
  rw [this]
  refine (checks_check hcol row).bind fun _ => ?_
  split
  · exact refuses_refuse _
  · refine (checks_checkLinks hcol _ _).bind fun hlinks => checks_checkOwners hcol _ fun l hl => ?_
    exact ((Column.linkFault?_eq_none_iff.1 hlinks).2 l hl).1

/-! ### Placements -/

theorem run_releases (hcol : col < d) (hn : n < UInt64.size)
    (hlt : ∀ r, ∀ link ∈ (x.node r).links, link < n) (keep : Nat → List Nat) {rows : List Nat}
    (hrows : ∀ r ∈ rows, r < n) :
    (rows.forM fun r => release ⟨r, col⟩ (keep r)).run (c.tableWith col x) =
      .ok () (c.tableWith col (rows.foldl (fun x r => x.release r (keep r)) x)) := by
  induction rows generalizing x with
  | nil => rfl
  | cons row rest ih =>
    change (release ⟨row, col⟩ (keep row) >>= fun _ =>
      rest.forM fun r => release ⟨r, col⟩ (keep r)).run _ = _
    rw [EStateM.run_bind, run_release hcol hn (hrows row List.mem_cons_self) (hlt row)]
    refine ih (fun r link hlink => ?_) fun r hr => hrows r (List.mem_cons_of_mem _ hr)
    rw [Column.node_release_eq] at hlink
    split at hlink
    · cases hlink
    · exact hlt r link hlink

theorem run_write (hcol : col < d) {row : Nat} {y : Node} (hrow : row < n)
    (hcontrols : ∀ r ∈ y.controls, r < n) :
    (store ⟨row, col⟩ (y.atRow row) >>= fun _ =>
      y.controls.forM fun r => store ⟨r, col⟩ (.controlMark r)).run (c.tableWith col x) =
      .ok () (c.tableWith col (x.write row y)) := by
  rw [EStateM.run_bind, run_store hcol hrow]
  dsimp only
  rw [run_forM_store hcol Node.controlMark hcontrols]
  congr 2
  refine Column.ext_node fun r hr => ?_
  rw [Column.node_ofRows hr, Column.node_put _ _ _ hr, Column.node_write _ _ _ hr]
  simp only [List.contains_iff_mem]
  by_cases heq : r = row
  · subst heq
    rfl
  · simp only [if_neg heq]

/-! ### Programs that do the same -/

/-- What the programs rely on: the column is there, its rows can be counted, and its nodes are
linked to rows of the column. -/
structure Ready (d col : Nat) (x : Column n) : Prop where
  col_lt : col < d
  wires_lt : n < UInt64.size
  linked : x.Linked

theorem Ready.place {x' : Column n} (h : Ready d col x) {row : Nat} {y : Node}
    {a : Unit} (hrun : (InPlace.place row y).run x = .ok a x') : Ready d col x' := by
  rw [run_place] at hrun
  cases hplace : x.place row y with
  | error fault =>
    rw [hplace] at hrun
    cases hrun
  | ok moved =>
    rw [hplace] at hrun
    cases hrun
    exact ⟨h.col_lt, h.wires_lt, h.linked.place hplace⟩

/-- What a program on a column comes to, in a circuit with that column and seen in its table. -/
def tabled (c : Circuit n d) (col : Nat) :
    EStateM.Result (EditError Nat) (Column n) α → EStateM.Result Stop Table α
  | .ok a x => .ok a (c.tableWith col x)
  | .error e x => .error (.refused (e.map (⟨·, col⟩))) (c.tableWith col x)

/-- The program on a table does in a column what the program on the column does. -/
def Follows (c : Circuit n d) (col : Nat) (x : Column n) (p : InTable α) (q : InPlace n α) :
    Prop :=
  p.run (c.tableWith col x) = tabled c col (q.run x)

theorem Finds.follows {p : InTable β} {k : β → InTable α} {a : β} {q : InPlace n α}
    (h : Finds (c.tableWith col x) p a) (hk : Follows c col x (k a) q) :
    Follows c col x (p >>= k) q :=
  (h.run_bind k).trans hk

namespace Follows

theorem pure (a : α) : Follows c col x (Pure.pure a) (Pure.pure a) := rfl

theorem refuse (fault : EditError Nat) :
    Follows c col x (InTable.refuse (fault.map (⟨·, col⟩)) : InTable α) (throw fault) := rfl

theorem get {p : InTable α} {q : Column n → InPlace n α} (h : Follows c col x p (q x)) :
    Follows c col x p (MonadState.get >>= q) := h

theorem bind {p : InTable β} {q : InPlace n β} {k : β → InTable α} {l : β → InPlace n α}
    (h : Follows c col x p q)
    (hk : ∀ a x', q.run x = .ok a x' → Follows c col x' (k a) (l a)) :
    Follows c col x (p >>= k) (q >>= l) := by
  unfold Follows at h ⊢
  rw [EStateM.run_bind, EStateM.run_bind, h]
  cases hq : q.run x with
  | error e x' => rfl
  | ok a x' => exact hk a x' hq

theorem map {p : InTable β} {q : InPlace n β} (h : Follows c col x p q) (f : β → α) :
    Follows c col x (f <$> p) (f <$> q) := by
  rw [map_eq_pure_bind, map_eq_pure_bind]
  exact h.bind fun a x' _ => pure _

theorem check_bind (hcol : col < d) {row : Nat} {k : Unit → InTable α} {l : Unit → InPlace n α}
    (h : row < n → Follows c col x (k ()) (l ())) :
    Follows c col x (check ⟨row, col⟩ >>= k) (checkRow row >>= l) := by
  have hcheck := checks_check (c := c) (x := x) hcol row
  unfold checkRow
  by_cases hrow : row < n
  · rw [if_neg (Nat.not_le.2 hrow)] at hcheck
    rw [if_pos hrow]
    exact Finds.follows hcheck (h hrow)
  · rw [if_pos (Nat.not_lt.1 hrow)] at hcheck
    rw [if_neg hrow]
    exact Refuses.bind hcheck k

theorem place (h : Ready d col x) (row : Nat) (y : Node) :
    Follows c col x (InTable.place ⟨row, col⟩ y) (InPlace.place row y) := by
  have hcheck := checks_checkPlace (c := c) (x := x) h.col_lt row y
  refine get ?_
  cases hfault : x.placeFault? row y with
  | some fault =>
    rw [hfault] at hcheck
    exact Refuses.bind hcheck _
  | none =>
    rw [hfault] at hcheck
    have hfits := Column.placeFault?_eq_none_iff.1 hfault
    have hcontrols : ∀ r ∈ y.controls, r < n := fun r hr =>
      hfits.lt_of_mem r (Node.mem_links_of_mem_controls hr)
    have hrows : ∀ r ∈ y.controls ++ [row], r < n := by
      intro r hr
      rcases List.mem_append.1 hr with hr | hr
      · exact hcontrols r hr
      · exact List.mem_singleton.1 hr ▸ hfits.row_lt
    refine Finds.follows hcheck ?_
    dsimp only
    unfold Follows
    rw [EStateM.run_bind, run_releases h.col_lt h.wires_lt (fun r _ => h.linked.lt_of_mem) _ hrows]
    dsimp only
    rw [run_write h.col_lt hfits.row_lt hcontrols, EStateM.run_bind, run_forM_modify]
    rfl

theorem clear (h : Ready d col x) (row : Nat) :
    Follows c col x (InTable.clear ⟨row, col⟩) (InPlace.clear row) :=
  place h row _

/-! ### Links -/

theorem relink (h : Ready d col x) {gate row : Nat} (hrow : row < n) (y : Node) :
    Follows c col x (InTable.relink gate row col y) (InPlace.relink gate row y) := by
  refine Finds.follows (.isFree h.col_lt hrow) (get ?_)
  split
  · exact refuses_refuseOccupied h.col_lt hrow
  · exact (place h gate y).bind fun _ _ hrun => clear (h.place hrun) row

/-- A new link: both cells are looked at, then the gate, and then it is put back. -/
theorem checked_relink (h : Ready d col x) (gate row : Nat) (allowed : Node → Bool)
    (y : Node → Node) (fault : Node → EditError Nat) :
    Follows c col x
      (do
        check ⟨gate, col⟩
        check ⟨row, col⟩
        let old ← read ⟨gate, col⟩
        if allowed old then InTable.relink gate row col (y old)
        else InTable.refuse ((fault old).map (⟨·, col⟩)))
      (do
        checkRow gate
        checkRow row
        let c ← MonadState.get
        if allowed (c.node gate) then InPlace.relink gate row (y (c.node gate))
        else throw (fault (c.node gate))) := by
  refine check_bind h.col_lt fun hgate => check_bind h.col_lt fun hrow => ?_
  refine Finds.follows (.read h.col_lt hgate) (get ?_)
  split
  · exact relink h hrow _
  · exact refuse _

theorem attachControl (h : Ready d col x) (gate row : Nat) :
    Follows c col x (InTable.attachControl gate row col) (InPlace.attachControl gate row) :=
  checked_relink h gate row
    (fun old => ({ old with control := some row } : Node).kind.isControlled)
    (fun old => { old with control := some row }) fun old => .uncontrollable old.kind

theorem attachSecondControl (h : Ready d col x) (gate row : Nat) :
    Follows c col x (InTable.attachSecondControl gate row col)
      (InPlace.attachSecondControl gate row) :=
  checked_relink h gate row
    (fun old => ({ old with secondControl := some row } : Node).kind == .toffoli)
    (fun old => { old with secondControl := some row }) fun old => .uncontrollable old.kind

theorem attachPartner (h : Ready d col x) (gate row : Nat) :
    Follows c col x (InTable.attachPartner gate row col) (InPlace.attachPartner gate row) :=
  checked_relink h gate row (fun old => old.symbol == .swap)
    (fun old => { old with partner := some row }) fun old => .unswappable old.kind

theorem detachControls (h : Ready d col x) (gate : Nat) :
    Follows c col x (InTable.detachControls gate col) (InPlace.detachControls gate) := by
  refine check_bind h.col_lt fun hgate => Finds.follows (.read h.col_lt hgate) (get ?_)
  dsimp only
  split
  · exact pure _
  · exact place h gate _

theorem fillGap (h : Ready d col x) {row : Nat}
    (hrow : row < n) : Follows c col x (InTable.fillGap ⟨row, col⟩) (InPlace.fillGap row) := by
  refine Finds.follows (.reading h.col_lt hrow) (get ?_)
  dsimp only
  split
  · exact place h row _
  · exact pure _

theorem moveControl (h : Ready d col x) (gate : Nat) (d' : Direction) :
    Follows c col x (InTable.moveControl gate col d') (InPlace.moveControl gate d') := by
  refine check_bind h.col_lt fun hgate => Finds.follows (.read h.col_lt hgate) (get ?_)
  cases hcontrol : (x.node gate).control with
  | none => exact refuse (.blocked gate)
  | some control =>
    cases hsecond : (x.node gate).secondControl with
    | some second => exact refuse (.blocked gate)
    | none =>
      have hmem : control ∈ (x.node gate).links :=
        Node.mem_links_of_mem_controls (Node.mem_controls.2 (.inl hcontrol))
      have hlt := h.linked.lt_of_mem hmem
      refine Finds.follows (.controlStep? h.wires_lt hlt d') ?_
      dsimp only
      cases hstep : Column.controlStep? n gate control d' with
      | none => exact refuse (.blocked gate)
      | some row =>
        have hrow : row < n := controlStep?_lt hlt hstep
        refine Finds.follows (.isFree h.col_lt hrow) ?_
        dsimp only
        rw [hsecond]
        split
        · -- Each write leaves a column that the next one can rely on.
          refine (place h gate _).bind fun _ moved hrun => ?_
          have hmoved := h.place hrun
          refine (clear hmoved row).bind fun _ cleared hrun => ?_
          have hcleared := hmoved.place hrun
          refine Finds.follows (.gap? h.wires_lt hrow d') ?_
          cases hgap : Column.gap? gate row d' with
          | none => exact pure _
          | some gap =>
            exact (fillGap hcleared (gap?_lt hgate hrow hgap)).bind fun _ _ _ => pure _
        · exact refuse (.blocked gate)

/-! ### Removal and rotation -/

theorem clearRows (h : Ready d col x) (rows : List Nat) :
    Follows c col x (rows.forM fun row => InTable.clear ⟨row, col⟩) (rows.forM InPlace.clear) := by
  induction rows generalizing x with
  | nil => exact pure _
  | cons row rest ih =>
    exact (clear h row).bind fun _ _ hrun => ih (h.place hrun)

theorem deleteGate (h : Ready d col x) {gate : Nat} (hgate : gate < n) :
    Follows c col x (InTable.deleteGate gate col) (InPlace.deleteGate gate) :=
  Finds.follows (.read h.col_lt hgate) (get (clearRows h _))

theorem delete (h : Ready d col x) (row : Nat) :
    Follows c col x (InTable.delete ⟨row, col⟩) (InPlace.delete row) := by
  refine check_bind h.col_lt fun hrow => Finds.follows (.reading h.col_lt hrow) (get ?_)
  dsimp only
  -- What becomes of a cell that shows a gate, whichever gate it is.
  have hrest : ∀ shown : Kind, Follows c col x
      (do
        if shown == .swap && (← read ⟨row, col⟩).kind == .empty then
          InTable.refuse (.notRemovable ⟨row, col⟩ shown)
        else InTable.deleteGate row col)
      (if shown == .swap && (x.node row).kind == .empty then throw (.notRemovable row shown)
      else InPlace.deleteGate row) := by
    intro shown
    refine Finds.follows (.read h.col_lt hrow) ?_
    split
    · exact refuse (.notRemovable row shown)
    · exact deleteGate h hrow
  generalize x.reading row = shown
  cases shown with
  | plain s =>
    cases s with
    | empty => exact pure _
    | control =>
      refine Finds.follows (.controller? h.col_lt row) ?_
      dsimp only
      cases hgate : x.controller? row with
      | none => exact refuse (.notRemovable row _)
      | some gate =>
        have hmem := Node.mem_links_of_mem_controls (Column.controller?_eq_some hgate).2
        exact deleteGate h (Column.lt_of_mem_links hmem)
    | trace => exact refuse (.notRemovable row _)
    | _ => exact hrest _
  | _ => exact hrest _

theorem rotate (h : Ready d col x) (row : Nat)
    (delta : Binary64) :
    Follows c col x (InTable.rotate ⟨row, col⟩ delta) (InPlace.rotate row delta) := by
  refine check_bind h.col_lt fun hrow => Finds.follows (.read h.col_lt hrow) ?_
  refine Finds.follows (.reading h.col_lt hrow) (get ?_)
  dsimp only
  split
  · exact place h row _
  · exact refuse (.unrotatable _)

/-- Every edit of a table does in a column what the edit in place does there. -/
theorem edit (h : Ready d col x) (e : ColumnEdit) :
    Follows c col x (InTable.edit col e) (InPlace.apply e) := by
  cases e with
  | place row y => exact (place h row y).map _
  | attachControl gate row => exact (attachControl h gate row).map _
  | attachSecondControl gate row => exact (attachSecondControl h gate row).map _
  | detachControls gate => exact (detachControls h gate).map _
  | moveControl gate d' => exact (moveControl h gate d').map _
  | attachPartner gate row => exact (attachPartner h gate row).map _
  | delete row => exact (delete h row).map _
  | rotate row delta => exact (rotate h row delta).map _

end Follows

end

/-! ### Circuits -/

variable {c : Circuit n d}

theorem Refuses.map {α β : Type} {t : Table} {p : InTable α} {fault : EditError Cell}
    (h : Refuses t p fault) (f : α → β) : Refuses t (f <$> p) fault := by
  rw [map_eq_pure_bind]
  exact h.bind _

theorem refuses_check {t : Table} {cell : Cell}
    (h : ¬(cell.row < t.wires ∧ cell.col < t.depth)) :
    Refuses t (check cell) (.outOfRange cell) := by
  unfold Refuses check
  rw [EStateM.run_bind, EStateM.run_get]
  dsimp only
  rw [if_neg (by simpa using h)]
  rfl

/-- Before anything else an edit looks whether its cell is there. -/
theorem refuses_edit {t : Table} {col : Nat} (e : ColumnEdit)
    (h : ¬(e.row < t.wires ∧ col < t.depth)) :
    Refuses t (edit col e) (.outOfRange ⟨e.row, col⟩) := by
  have hcheck : Refuses t (check ⟨e.row, col⟩) (.outOfRange ⟨e.row, col⟩) := refuses_check h
  cases e with
  | place row x => exact ((hcheck.bind _).bind _).map _
  | attachControl gate row => exact (hcheck.bind _).map _
  | attachSecondControl gate row => exact (hcheck.bind _).map _
  | detachControls gate => exact (hcheck.bind _).map _
  | moveControl gate d => exact (hcheck.bind _).map _
  | attachPartner gate row => exact (hcheck.bind _).map _
  | delete row => exact (hcheck.bind _).map _
  | rotate row delta => exact (hcheck.bind _).map _

/-- What an edit of a circuit comes to, seen in its table. -/
def seen (c : Circuit n d) :
    Except (EditError Cell) (Circuit n d × Option Nat) → EStateM.Result Stop Table (Option Nat)
  | .ok (c', told) => .ok told c'.table
  | .error fault => .error (.refused fault) c.table

/-- A program that follows one in the column of a cell does in the table what a change of that
column does in the circuit. -/
theorem run_of_follows (cell : Cell) {p : InTable (Option Nat)} {q : InPlace n (Option Nat)}
    {change : Column n → Except (EditError Nat) (Column n × Option Nat)}
    (hin : cell.col < d → Follows c cell.col (c.column cell.col) p q)
    (hsettled : q.run (c.column cell.col) =
      settled (c.column cell.col) id (change (c.column cell.col)))
    (hout : ¬(cell.row < n ∧ cell.col < d) → Refuses c.table p (.outOfRange cell)) :
    p.run c.table = seen c (c.edit cell change) := by
  by_cases hcol : cell.col < d
  · have hfollows := hin hcol
    unfold Follows at hfollows
    rw [Circuit.tableWith_column, hsettled] at hfollows
    rw [hfollows, Circuit.edit_eq hcol]
    cases change (c.column cell.col) with
    | ok result => rfl
    | error fault =>
      dsimp only [settled, tabled, seen]
      rw [Circuit.tableWith_column]
  · rw [Circuit.edit_of_le (Nat.not_lt.1 hcol)]
    exact hout fun hin => hcol hin.2

/-- An edit of the table of a circuit does what the edit of the circuit does. -/
theorem run_edit (hn : n < UInt64.size) (hlinked : ∀ col, (c.column col).Linked) (col : Nat)
    (e : ColumnEdit) : (edit col e).run c.table = seen c (c.apply col e) :=
  run_of_follows ⟨e.row, col⟩ (fun hcol => .edit ⟨hcol, hn, hlinked col⟩ e)
    (run_apply (hlinked col) e) fun hout => refuses_edit e hout

end InTable

end QuantumCircuit

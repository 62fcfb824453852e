import QuantumCircuit.Proofs.InPlace
import Mathlib.Tactic.ByContra

/-!
# Refused edits change nothing

The programs of `InPlace` write before they are done, and what they have written stays when a
later step fails.  Here each of them is compared with the edit that it carries out: they succeed
alike, with the same column, and they fail alike, with the column that they began with
(`settled`).

The reason is the same everywhere.  A program looks for faults before its first write, and what
comes after the first write is only the emptying of rows and the marking of a gap, which never
fail in the rows of the column.  What is needed to know of the column is that links stay in it
(`Column.Linked`), whatever nodes a caller has put there: a control that moves comes to a row of the
column, and the far end of a gate that is deleted is one.

* `refused_unchanged` : a refused edit or command leaves the circuit as it was, and an editor shows
  the message of the fault.
-/

namespace QuantumCircuit

namespace InPlace

variable {n d : Nat}

/-! ### Runs that fail without a trace -/

/-- The result of a run that begins at `s`, given what it should come to: if that is a fault, then
the run ends where it began. -/
def settled {ε σ α β : Type} (s : σ) (f : β → σ × α) : Except ε β → EStateM.Result ε σ α
  | .ok b => .ok (f b).2 (f b).1
  | .error e => .error e s

section

variable {ε σ α β γ : Type} {s : σ} {f : β → σ × α}

theorem settled_map (g : γ → β) (r : Except ε γ) :
    settled s f (r.map g) = settled s (fun c => f (g c)) r := by
  cases r <;> rfl

theorem run_map_of_settled {m : EStateM ε σ α} {r : Except ε β} (h : m.run s = settled s f r)
    (g : α → γ) : (g <$> m).run s = settled s (fun b => ((f b).1, g (f b).2)) r := by
  change EStateM.map g m s = _
  change m s = _ at h
  rw [EStateM.map, h]
  cases r <;> rfl

theorem run_ofExcept_bind {x : Except ε γ} {k : γ → EStateM ε σ α} {r : γ → Except ε β}
    (h : ∀ a, x = .ok a → (k a).run s = settled s f (r a)) :
    (ofExcept x >>= k).run s = settled s f (x >>= r) := by
  cases x with
  | error e => rfl
  | ok a => exact h a rfl

end

variable {α β : Type} {c : Column n} {f : β → Column n × α}

theorem run_checkRow_bind {row : Nat} {k : Unit → InPlace n α}
    {r : Unit → Except (EditError Nat) β}
    (h : row < n → (k ()).run c = settled c f (r ())) :
    (checkRow row >>= k).run c = settled c f (c.checkRow row >>= r) := by
  unfold checkRow Column.checkRow
  by_cases hrow : row < n
  · simp only [if_pos hrow]
    exact h hrow
  · simp only [if_neg hrow]
    rfl

/-! ### Placements -/

theorem run_forM_modify (g : Nat → Column n → Column n) (rows : List Nat) (c : Column n) :
    (rows.forM fun r => (modify (g r) : InPlace n Unit)).run c
      = .ok () (rows.foldl (fun c r => g r c) c) := by
  induction rows generalizing c with
  | nil => rfl
  | cons row rest ih => exact ih (g row c)

theorem run_place (row : Nat) (x : Node) :
    (place row x).run c = settled c (·, ()) (c.place row x) := by
  unfold place Column.place
  rw [EStateM.run_bind, EStateM.run_get]
  dsimp only
  cases c.placeFault? row x with
  | some fault => rfl
  | none =>
    dsimp only
    rw [EStateM.run_bind, run_forM_modify]
    rfl

/-- What follows a placement must not fail once the node is there. -/
theorem run_place_bind {row : Nat} {x : Node} {k : Unit → InPlace n α} {g : Column n → β}
    (h : ∀ moved, (k ()).run moved = .ok (f (g moved)).2 (f (g moved)).1) :
    (place row x >>= k).run c = settled c f ((c.place row x).map g) := by
  rw [EStateM.run_bind, run_place]
  cases c.place row x with
  | error fault => rfl
  | ok moved => exact h moved

/-- A row of the column can always be emptied. -/
theorem run_clear {row : Nat} (hrow : row < n) : (clear row).run c = .ok () (c.clear row) := by
  rw [clear, run_place, Column.place_blank hrow]
  rfl

theorem run_forM_clear {rows : List Nat} (hrows : ∀ row ∈ rows, row < n) (c : Column n) :
    (rows.forM (clear : Nat → InPlace n Unit)).run c = .ok () (rows.foldl Column.clear c) := by
  induction rows generalizing c with
  | nil => rfl
  | cons row rest ih =>
    change (clear row >>= fun _ => rest.forM clear).run c = _
    rw [EStateM.run_bind, run_clear (hrows row (List.mem_cons_self ..))]
    exact ih (fun r hr => hrows r (List.mem_cons_of_mem _ hr)) _

/-- A gap in the column can always be marked. -/
theorem run_fillGap {row : Nat} (hrow : row < n) :
    (fillGap row).run c = .ok () (c.fillGap row) := by
  have hfits : c.Fits row (.traceMark row) := Column.fits_of_links_nil hrow rfl
  unfold fillGap Column.fillGap
  rw [EStateM.run_bind, EStateM.run_get]
  dsimp only
  split
  · rw [run_place, Column.place, Column.placeFault?_eq_none_iff.2 hfits]
    rfl
  · rfl

/-! ### Links -/

theorem run_relink {gate row : Nat} (hrow : row < n) (x : Node) :
    (relink gate row x).run c = settled c (·, ()) (c.relink gate row x) := by
  unfold relink Column.relink
  rw [EStateM.run_bind, EStateM.run_get]
  dsimp only
  split
  · rfl
  · exact run_place_bind fun moved => run_clear hrow

/-- A new link: both rows are looked at, then the gate, and then it is put back. -/
theorem run_checked_relink (gate row : Nat) (allowed : Column n → Bool) (x : Column n → Node)
    (fault : Column n → EditError Nat) :
    (do
        checkRow gate
        checkRow row
        let c ← get
        if allowed c then relink gate row (x c) else throw (fault c) : InPlace n Unit).run c =
      settled c (·, ()) (do
        c.checkRow gate
        c.checkRow row
        if allowed c then c.relink gate row (x c) else .error (fault c)) := by
  refine run_checkRow_bind fun _ => run_checkRow_bind fun hrow => ?_
  rw [EStateM.run_bind, EStateM.run_get]
  dsimp only
  split
  · exact run_relink hrow _
  · rfl

theorem run_attachControl (gate row : Nat) :
    (attachControl gate row).run c = settled c (·, ()) (c.attachControl gate row) :=
  run_checked_relink gate row
    (fun c => ({ c.node gate with control := some row } : Node).kind.isControlled)
    (fun c => { c.node gate with control := some row })
    fun c => .uncontrollable (c.node gate).kind

theorem run_attachSecondControl (gate row : Nat) :
    (attachSecondControl gate row).run c = settled c (·, ()) (c.attachSecondControl gate row) :=
  run_checked_relink gate row
    (fun c => ({ c.node gate with secondControl := some row } : Node).kind == .toffoli)
    (fun c => { c.node gate with secondControl := some row })
    fun c => .uncontrollable (c.node gate).kind

theorem run_attachPartner (gate row : Nat) :
    (attachPartner gate row).run c = settled c (·, ()) (c.attachPartner gate row) :=
  run_checked_relink gate row (fun c => (c.node gate).symbol == .swap)
    (fun c => { c.node gate with partner := some row }) fun c => .unswappable (c.node gate).kind

theorem run_detachControls (gate : Nat) :
    (detachControls gate).run c = settled c (·, ()) (c.detachControls gate) := by
  unfold detachControls Column.detachControls
  refine run_checkRow_bind fun _ => ?_
  rw [EStateM.run_bind, EStateM.run_get]
  dsimp only
  split
  · rfl
  · exact run_place gate _

theorem controlStep?_lt {gate control row : Nat} {d : Direction} (hcontrol : control < n)
    (h : Column.controlStep? n gate control d = some row) : row < n := by
  obtain ⟨next, hnext, h⟩ := Option.bind_eq_some_iff.1 h
  have hlt := Direction.nextRow?_lt hcontrol hnext
  split at h
  · exact Direction.nextRow?_lt hlt h
  · cases h
    exact hlt

theorem gap?_lt {gate row gap : Nat} {d : Direction} (hgate : gate < n) (hrow : row < n)
    (h : Column.gap? gate row d = some gap) : gap < n := by
  rcases Column.isBetween_iff.1 (Column.isBetween_of_gap? h) with ⟨-, hlt⟩ | ⟨-, hlt⟩
  · exact Nat.lt_trans hlt hrow
  · exact Nat.lt_trans hlt hgate

theorem run_moveControl (hlinked : c.Linked) (gate : Nat) (d : Direction) :
    (moveControl gate d).run c = settled c id (c.moveControl gate d) := by
  unfold moveControl Column.moveControl
  refine run_checkRow_bind fun hgate => ?_
  rw [EStateM.run_bind, EStateM.run_get]
  dsimp only
  cases hcontrol : (c.node gate).control with
  | none => rfl
  | some control =>
    cases hsecond : (c.node gate).secondControl with
    | some second => rfl
    | none =>
      dsimp only
      cases hstep : Column.controlStep? n gate control d with
      | none => rfl
      | some row =>
        have hmem : control ∈ (c.node gate).links :=
          Node.mem_links_of_mem_controls (Node.mem_controls.2 (.inl hcontrol))
        have hrow : row < n := controlStep?_lt (hlinked.lt_of_mem hmem) hstep
        dsimp only
        split
        · -- The gate has been put back; from here on nothing can fail.
          refine run_place_bind fun moved => ?_
          rw [EStateM.run_bind, run_clear hrow]
          cases hgap : Column.gap? gate row d with
          | none => rfl
          | some gap =>
            dsimp only [Option.elim]
            rw [EStateM.run_bind, run_fillGap (gap?_lt hgate hrow hgap)]
            rfl
        · rfl

/-! ### Removal and rotation -/

theorem run_deleteGate (hlinked : c.Linked) {row : Nat} (hrow : row < n) :
    (deleteGate row).run c = .ok () (c.deleteGate row) := by
  -- The range ends in a row of the column, so none of its rows is out of range.
  have hfar := hlinked.farEnd_lt hrow
  unfold deleteGate
  rw [EStateM.run_bind, EStateM.run_get]
  refine run_forM_clear (fun r hr => ?_) c
  rw [List.mem_range'_1, Column.distance] at hr
  omega

theorem run_delete (hlinked : c.Linked) (row : Nat) :
    (delete row).run c = settled c (·, ()) (c.delete row) := by
  unfold delete Column.delete
  refine run_checkRow_bind fun hrow => ?_
  rw [EStateM.run_bind, EStateM.run_get]
  dsimp only
  -- What becomes of a row that shows a gate, whichever gate it is.
  have hrest : (if c.reading row == .swap && (c.node row).kind == .empty then
        throw (.notRemovable row (c.reading row))
      else deleteGate row : InPlace n Unit).run c = settled c (·, ())
        (if c.reading row == .swap && (c.node row).kind == .empty then
          .error (.notRemovable row (c.reading row))
        else .ok (c.deleteGate row)) := by
    split
    · rfl
    · exact run_deleteGate hlinked hrow
  generalize c.reading row = kind at hrest ⊢
  cases kind with
  | plain s =>
    cases s with
    | empty => rfl
    | control =>
      cases hgate : c.controller? row with
      | none => rfl
      | some gate =>
        have hmem := Node.mem_links_of_mem_controls (Column.controller?_eq_some hgate).2
        exact run_deleteGate hlinked (Column.lt_of_mem_links hmem)
    | trace => rfl
    | _ => exact hrest
  | _ => exact hrest

theorem run_rotate (row : Nat) (delta : Binary64) :
    (rotate row delta).run c = settled c (·, ()) (c.rotate row delta) := by
  unfold rotate Column.rotate
  refine run_checkRow_bind fun _ => ?_
  rw [EStateM.run_bind, EStateM.run_get]
  dsimp only
  split
  · exact run_place row _
  · rfl

theorem run_told {m : InPlace n Unit} {r : Except (EditError Nat) (Column n)}
    (h : m.run c = settled c (·, ()) r) (told : Option Nat) :
    ((fun _ => told) <$> m).run c = settled c id (r.map (·, told)) := by
  rw [run_map_of_settled h, settled_map]
  rfl

/-- Each edit of a linked column succeeds or fails in place as it does at once. -/
theorem run_apply (hlinked : c.Linked) (e : ColumnEdit) :
    (apply e).run c = settled c id (c.apply e) := by
  cases e with
  | place row x => exact run_told (run_place row x) _
  | attachControl gate row => exact run_told (run_attachControl gate row) _
  | attachSecondControl gate row => exact run_told (run_attachSecondControl gate row) _
  | detachControls gate => exact run_told (run_detachControls gate) _
  | moveControl gate d =>
    rw [apply, run_map_of_settled (run_moveControl hlinked gate d), Column.apply, settled_map]
    rfl
  | attachPartner gate row => exact run_told (run_attachPartner gate row) _
  | delete row => exact run_told (run_delete hlinked row) _
  | rotate row delta => exact run_told (run_rotate row delta) _

/-! ### Gestures -/

/-- A failed attempt leaves the column to the next one as it was. -/
theorem run_firstSuccess {attempt : Nat → InPlace n α}
    {attempt' : Nat → Except (EditError Nat) β}
    (h : ∀ row, (attempt row).run c = settled c f (attempt' row)) (rows : List Nat)
    (fault : EditError Nat) :
    (firstSuccess attempt fault rows).run c =
      settled c f (Column.firstSuccess attempt' fault rows) := by
  induction rows generalizing fault with
  | nil => rfl
  | cons row rest ih =>
    have hrow : attempt row c = settled c f (attempt' row) := h row
    change EStateM.tryCatch (attempt row) (fun e => firstSuccess attempt e rest) c = _
    rw [EStateM.tryCatch, hrow, Column.firstSuccess]
    cases attempt' row with
    | error e => exact ih e
    | ok a => rfl

theorem run_firstUnoccupied {attempt : Nat → InPlace n α}
    {attempt' : Nat → Except (EditError Nat) β}
    (h : ∀ row, (attempt row).run c = settled c f (attempt' row)) (fault : EditError Nat)
    (rows : List Nat) :
    (firstUnoccupied attempt fault rows).run c =
      settled c f (Column.firstUnoccupied attempt' fault rows) := by
  induction rows with
  | nil => rfl
  | cons row rest ih =>
    have hrow : attempt row c = settled c f (attempt' row) := h row
    change EStateM.tryCatch (attempt row) (fun e =>
      if e.isOccupied then firstUnoccupied attempt fault rest else throw e) c = _
    rw [EStateM.tryCatch, hrow, Column.firstUnoccupied]
    cases attempt' row with
    | error e =>
      dsimp only [settled]
      split
      · exact ih
      · rfl
    | ok a => rfl

theorem run_placeNew (row : Nat) (g : NewGate) :
    (placeNew row g).run c = settled c (·, ()) (c.placeNew row g) := by
  unfold placeNew Column.placeNew
  refine run_checkRow_bind fun _ => ?_
  rw [EStateM.run_bind, EStateM.run_get]
  dsimp only
  split
  · exact run_ofExcept_bind fun x _ => run_place row x
  · rfl

theorem run_toggleGate (hlinked : c.Linked) (row : Nat) (kind : Kind) :
    (toggleGate row kind).run c = settled c (·, ()) (c.toggleGate row kind) := by
  unfold toggleGate Column.toggleGate
  refine run_checkRow_bind fun _ => ?_
  rw [EStateM.run_bind, EStateM.run_get]
  dsimp only
  split
  · exact run_ofExcept_bind fun g _ => run_placeNew row g
  · split
    · exact run_delete hlinked row
    · rfl

theorem run_rotateTo (row : Nat) (theta : Binary64) :
    (rotateTo row theta).run c = settled c (·, ()) (c.rotateTo row theta) := by
  unfold rotateTo Column.rotateTo
  rw [EStateM.run_bind, EStateM.run_get]
  exact run_rotate row _

theorem run_toggleControl (row : Nat) :
    (toggleControl row).run c = settled c (·, ()) (c.toggleControl row) := by
  unfold toggleControl Column.toggleControl
  refine run_checkRow_bind fun _ => ?_
  rw [EStateM.run_bind, EStateM.run_get]
  dsimp only
  split
  · exact run_firstSuccess (run_attachControl row) _ _
  · exact run_detachControls row

theorem run_addSecondControl (row : Nat) :
    (addSecondControl row).run c = settled c id (c.addSecondControl row) := by
  unfold addSecondControl Column.addSecondControl
  refine run_checkRow_bind fun _ => ?_
  rw [EStateM.run_bind, EStateM.run_get]
  refine run_firstUnoccupied (fun r => ?_) _ _
  rw [run_map_of_settled (run_attachSecondControl row r), settled_map]
  rfl

theorem run_toggleSwap (row : Nat) :
    (toggleSwap row).run c = settled c (·, ()) (c.toggleSwap row) := by
  unfold toggleSwap Column.toggleSwap
  refine run_checkRow_bind fun _ => ?_
  rw [EStateM.run_bind, EStateM.run_get]
  dsimp only
  split
  · exact run_place row _
  · exact run_firstUnoccupied (run_attachPartner row) _ _

/-! ### Circuits -/

section

variable {c : Circuit n d} {cell : Cell}

/-- A program that is settled in its column is settled in the circuit. -/
theorem run_onColumn {program : InPlace n α}
    (change : Column n → Except (EditError Nat) (Column n × α))
    (h : program.run (c.column cell.col) = settled (c.column cell.col) id
      (change (c.column cell.col))) :
    (onColumn cell program).run c = settled c id (c.edit cell change) := by
  change onColumn cell program c = _
  unfold onColumn Circuit.edit
  by_cases hcol : cell.col < d
  · have hcolumn : c.column cell.col = c.columns[cell.col] := dif_pos hcol
    rw [hcolumn] at h
    rw [dif_pos hcol, dif_pos hcol, h]
    cases change c.columns[cell.col] with
    | error fault =>
      have hset : c.columns.set cell.col c.columns[cell.col] = c.columns := by simp
      simp only [settled, hset]
    | ok result => rfl
  · rw [dif_neg hcol, dif_neg hcol]
    rfl

theorem run_onColumn_silently {program : InPlace n Unit}
    (change : Column n → Except (EditError Nat) (Column n))
    (h : program.run (c.column cell.col) = settled (c.column cell.col) (·, ())
      (change (c.column cell.col))) :
    (onColumn cell (silently program)).run c =
      settled c id (c.edit cell fun column => Editor.silently (change column)) :=
  run_onColumn (fun column => Editor.silently (change column)) (run_told h none)

theorem run_edit (hlinked : ∀ col, (c.column col).Linked) (col : Nat) (e : ColumnEdit) :
    (edit col e).run c = settled c id (c.apply col e) :=
  run_onColumn (·.apply e) (run_apply (hlinked col) e)

/-- Each command succeeds or fails in place as it does at once. -/
theorem run_attempt (hlinked : ∀ col, (c.column col).Linked) (command : Command) :
    (attempt command).run c = settled c id (Editor.attempt c command) := by
  cases command with
  | place cell kind angles =>
    exact run_ofExcept_bind fun g _ =>
      run_onColumn_silently (·.placeNew cell.row g) (run_placeNew cell.row g)
  | placeText cell kind text =>
    exact run_ofExcept_bind fun angles _ => run_ofExcept_bind fun g _ =>
      run_onColumn_silently (·.placeNew cell.row g) (run_placeNew cell.row g)
  | toggleGate cell kind =>
    exact run_onColumn_silently (·.toggleGate cell.row kind)
      (run_toggleGate (hlinked cell.col) cell.row kind)
  | toggleControl cell =>
    exact run_onColumn_silently (·.toggleControl cell.row) (run_toggleControl cell.row)
  | addSecondControl cell =>
    dsimp only [attempt, Editor.attempt]
    refine run_onColumn _ ?_
    rw [run_map_of_settled (run_addSecondControl cell.row), settled_map]
    rfl
  | toggleSwap cell =>
    exact run_onColumn_silently (·.toggleSwap cell.row) (run_toggleSwap cell.row)
  | moveControl cell direction => exact run_edit hlinked cell.col (.moveControl cell.row direction)
  | delete cell => exact run_edit hlinked cell.col (.delete cell.row)
  | rotate cell delta => exact run_edit hlinked cell.col (.rotate cell.row delta)
  | rotateTo cell text =>
    exact run_ofExcept_bind fun theta _ =>
      run_onColumn_silently (·.rotateTo cell.row theta) (run_rotateTo cell.row theta)

end

end InPlace

open InPlace

namespace Circuit

variable {n d : Nat} {c : Circuit n d}

theorem overwritten_eq_after (hlinked : ∀ col, (c.column col).Linked) (a : Action) :
    c.overwritten a = c.after a := by
  cases a with
  | command command =>
    rw [overwritten, after, run_attempt hlinked]
    cases Editor.attempt c command <;> rfl
  | edit col e =>
    rw [overwritten, after, run_edit hlinked]
    cases c.apply col e <;> rfl
  | reset => rfl

/-- Edits in place lead to no circuits that edits at once do not lead to. -/
theorem Written.reachable (h : c.Written) : c.Reachable := by
  induction h with
  | blank => exact .blank
  | after _ a ih =>
    rw [overwritten_eq_after ih.linked]
    exact ih.after a

/-- A refused edit leaves a circuit as it was, however the circuit has come about and however many
writes the edit is made of, and so does a refused command: of the editor only the status line
changes, to the message of the fault.  It is empty after a command that succeeds.  What succeeds
has the result of `Circuit.apply` and `Editor.perform`. -/
theorem refused_unchanged (h : c.Written) :
    (∀ col e, (InPlace.edit col e).run c = settled c id (c.apply col e)) ∧
    (∀ col e fault c', (InPlace.edit col e).run c = .error fault c' → c' = c) ∧
    ∀ (ed : Editor n d) command, ed.circuit = c →
      outcome ((InPlace.perform command).run ed) = ed.perform command ∧
      (∀ fault ed', (InPlace.perform command).run ed = .error fault ed' →
        ed' = { ed with status := fault.message }) ∧
      ∀ row ed', (InPlace.perform command).run ed = .ok row ed' → ed'.status = "" := by
  have hlinked := h.reachable.linked
  refine ⟨run_edit hlinked, fun col e fault c' herr => ?_, ?_⟩
  · rw [run_edit hlinked] at herr
    cases hresult : c.apply col e with
    | ok result =>
      rw [hresult] at herr
      cases herr
    | error fault' =>
      rw [hresult] at herr
      cases herr
      rfl
  · rintro ⟨c, cursor, rotationStep, status⟩ command rfl
    have hrun := run_attempt hlinked command
    simp only [EStateM.run] at hrun ⊢
    simp only [InPlace.perform, Editor.perform, EStateM.run, hrun]
    cases Editor.attempt c command with
    | ok result =>
      refine ⟨rfl, fun fault ed' herr => ?_, fun row ed' hok => ?_⟩
      · cases herr
      · cases hok
        rfl
    | error fault =>
      refine ⟨rfl, fun fault' ed' herr => ?_, fun row ed' hok => ?_⟩
      · cases herr
        rfl
      · cases hok

/-- A run that returns a fault ends in it. -/
theorem exists_of_outcome {ε σ α : Type} {result : EStateM.Result ε σ α} {fault : ε}
    (h : (outcome result).2 = .error fault) : ∃ s, result = .error fault s := by
  cases result with
  | ok a s => cases h
  | error e s =>
    cases h
    exact ⟨s, rfl⟩

/-- A controlled gate in the middle row of three, with other gates on top of its control and below
it. -/
def crowded : Circuit 3 1 :=
  ((blank.overwritten (.edit 0 (.place 1 { Node.ofSymbol .x with control := some 0 }))).overwritten
    (.edit 0 (.place 0 (.ofSymbol .hadamard)))).overwritten (.edit 0 (.place 2 (.ofSymbol .y)))

theorem written_crowded : crowded.Written := ((Written.blank.after _).after _).after _

/-- The rows above and below the gate are both taken, so its control cannot move down, and it cannot
have a second one. -/
theorem refused_unchanged_crowded :
    crowded.Written ∧ (crowded.node ⟨1, 0⟩).controls = [0] ∧
      (crowded.node ⟨0, 0⟩).kind = .plain .hadamard ∧
      (InPlace.edit 0 (.moveControl 1 .down)).run crowded = .error (.blocked ⟨1, 0⟩) crowded ∧
      (InPlace.perform (.addSecondControl ⟨1, 0⟩)).run
          (⟨crowded, ⟨2, 0⟩, .pi, ""⟩ : Editor 3 1) =
        .error (.blocked ⟨1, 0⟩) ⟨crowded, ⟨2, 0⟩, .pi,
          "control of the gate on q[1], column 0 cannot move there"⟩ := by
  have h := refused_unchanged written_crowded
  refine ⟨written_crowded, by decide +kernel, by decide +kernel, ?_, ?_⟩
  · have hrefused : crowded.apply 0 (.moveControl 1 .down) = .error (.blocked ⟨1, 0⟩) := by
      decide +kernel
    rw [h.1, hrefused, settled]
  · obtain ⟨houtcome, hfault, -⟩ :=
      h.2.2 ⟨crowded, ⟨2, 0⟩, .pi, ""⟩ (.addSecondControl ⟨1, 0⟩) rfl
    have hrefused : (Editor.perform (⟨crowded, ⟨2, 0⟩, .pi, ""⟩ : Editor 3 1)
        (.addSecondControl ⟨1, 0⟩)).2 = .error (.blocked ⟨1, 0⟩) := by
      decide +kernel
    rw [← houtcome] at hrefused
    obtain ⟨ed', hrun⟩ := exists_of_outcome hrefused
    have hmessage : (EditError.blocked (⟨1, 0⟩ : Cell)).message =
        "control of the gate on q[1], column 0 cannot move there" := by decide
    have hed' := hfault _ ed' hrun
    rw [hmessage] at hed'
    rw [hrun, hed']

end Circuit

end QuantumCircuit

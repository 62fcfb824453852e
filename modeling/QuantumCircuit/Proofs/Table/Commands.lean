import Mathlib.Algebra.Group.Nat.Defs
import QuantumCircuit.Proofs.Table.Agreement
import QuantumCircuit.Proofs.Table.Gestures

/-!
# Commands on a table and on a circuit

A command comes to the same on the table of a circuit as on the circuit (`InTable.run_attempt`).

The gestures follow those in place, as the edits do.  A gesture that tries several rows goes on with
the table that the last attempt has left behind; that is the one it began with, since a refused
attempt leaves its column as it was (`InPlace.eq_of_refused`).  The rows that it tries are counted
from a row of the column, and no farther than there are rows, so a machine word holds their numbers
if there are fewer than `2 ^ 63` rows.
-/

namespace QuantumCircuit

theorem EditError.isOccupied_map {α β : Type} (f : α → β) (fault : EditError α) :
    (fault.map f).isOccupied = fault.isOccupied := by
  cases fault <;> rfl

/-- A run that fails without a trace ends where it began. -/
theorem InPlace.eq_of_refused {ε σ α β : Type} {p : EStateM ε σ α} {s s' : σ} {f : β → σ × α}
    {r : Except ε β} (h : p.run s = settled s f r) {e : ε} (he : p.run s = .error e s') :
    s' = s := by
  rw [he] at h
  cases r with
  | ok b => cases h
  | error e => exact (EStateM.Result.error.inj h).2

namespace InTable

open InPlace

variable {n d : Nat} {α β : Type} {c : Circuit n d} {col : Nat} {x : Column n}

/-! ### Looking for a row -/

namespace Finds

theorem farBelow {t : Table} {row distance : Nat} (h : row + distance < UInt64.size) :
    Finds t (InTable.farBelow row distance) (row + distance) := by
  unfold InTable.farBelow
  rw [if_pos h]
  exact pure _

theorem neighbours (hn : n < UInt64.size) {row : Nat} (hrow : row < n) :
    Finds (c.tableWith col x) (InTable.neighbours row) (x.neighbours row) :=
  (nextRow? hn hrow .up).bind <| (nextRow? hn hrow .down).bind (pure _)

theorem nearestRows (hn : n < 2 ^ 63) {row : Nat} (hrow : row < n) :
    Finds (c.tableWith col x) (InTable.nearestRows row) (x.nearestRows row) := by
  have hsize : UInt64.size = 2 ^ 63 + 2 ^ 63 := rfl
  refine wires.bind <| collect fun distance hdistance => ?_
  have hlt : distance < n := by
    have := List.mem_range'_1.1 hdistance
    omega
  exact (farBelow (by omega)).bind (pure _)

end Finds

/-! ### Gestures -/

namespace Follows

/-- What comes after a refusal is done with the column that the refused program has left. -/
theorem afterRefusal {p : InTable α} {q : InPlace n α} {next : EditError Cell → InTable α}
    {next' : EditError Nat → InPlace n α} (h : Follows c col x p q)
    (hnext : ∀ e x', q.run x = .error e x' →
      Follows c col x' (next (e.map (⟨·, col⟩))) (next' e)) :
    Follows c col x (InTable.afterRefusal p next) (tryCatch q next') := by
  change p (c.tableWith col x) = tabled c col (q x) at h
  change EStateM.tryCatch p _ (c.tableWith col x) = tabled c col (EStateM.tryCatch q next' x)
  unfold EStateM.tryCatch
  rw [h]
  cases hq : q x with
  | ok a x' => rfl
  | error e x' => exact hnext e x' hq

theorem acceptAt_bind {value : Except (EditError Nat) β} {k : β → InTable α} {l : β → InPlace n α}
    (h : ∀ b, Follows c col x (k b) (l b)) :
    Follows c col x (acceptAt col value >>= k) (ofExcept value >>= l) := by
  cases value with
  | ok b => exact h b
  | error fault => rfl

section

variable {p : Nat → InTable α} {q : Nat → InPlace n α}

theorem firstSuccess (h : ∀ row, Follows c col x (p row) (q row))
    (hleft : ∀ row e x', (q row).run x = .error e x' → x' = x) (fault : EditError Nat)
    (rows : List Nat) :
    Follows c col x (InTable.firstSuccess p (fault.map (⟨·, col⟩)) rows)
      (InPlace.firstSuccess q fault rows) := by
  induction rows generalizing fault with
  | nil => exact refuse fault
  | cons row rest ih =>
    refine afterRefusal (h row) fun e x' herror => ?_
    rw [hleft row e x' herror]
    exact ih e

theorem firstUnoccupied (h : ∀ row, Follows c col x (p row) (q row))
    (hleft : ∀ row e x', (q row).run x = .error e x' → x' = x) (fault : EditError Nat)
    (rows : List Nat) :
    Follows c col x (InTable.firstUnoccupied p (fault.map (⟨·, col⟩)) rows)
      (InPlace.firstUnoccupied q fault rows) := by
  induction rows with
  | nil => exact refuse fault
  | cons row rest ih =>
    refine afterRefusal (h row) fun e x' herror => ?_
    rw [hleft row e x' herror, EditError.isOccupied_map]
    split
    · exact ih
    · exact refuse e

end

theorem placeNew (h : Ready d col x) (row : Nat) (g : NewGate) :
    Follows c col x (InTable.placeNew ⟨row, col⟩ g) (InPlace.placeNew row g) := by
  refine check_bind h.col_lt fun hrow => Finds.follows (.reading h.col_lt hrow) (get ?_)
  split
  · exact acceptAt_bind fun y => place h row y
  · exact refuse (x.occupied row)

theorem toggleGate (h : Ready d col x) (row : Nat) (kind : Kind) :
    Follows c col x (InTable.toggleGate ⟨row, col⟩ kind) (InPlace.toggleGate row kind) := by
  refine check_bind h.col_lt fun hrow => Finds.follows (.reading h.col_lt hrow) (get ?_)
  dsimp only
  split
  · exact acceptAt_bind fun g => placeNew h row g
  · refine Finds.follows (.read h.col_lt hrow) ?_
    split
    · exact delete h row
    · exact refuse (x.occupied row)

theorem toggleControl (h : Ready d col x) (row : Nat) :
    Follows c col x (InTable.toggleControl ⟨row, col⟩) (InPlace.toggleControl row) := by
  refine check_bind h.col_lt fun hrow => Finds.follows (.read h.col_lt hrow) (get ?_)
  dsimp only
  split
  · refine Finds.follows (.neighbours h.wires_lt hrow) ?_
    exact firstSuccess (attachControl h row)
      (fun r _ _ => eq_of_refused (run_attachControl row r)) (.blocked row) _
  · exact detachControls h row

theorem addSecondControl (h : Ready d col x) (hn : n < 2 ^ 63) (row : Nat) :
    Follows c col x (InTable.addSecondControl ⟨row, col⟩) (InPlace.addSecondControl row) := by
  refine check_bind h.col_lt fun hrow => get (Finds.follows (.nearestRows hn hrow) ?_)
  refine firstUnoccupied (fun r => (attachSecondControl h row r).map _) (fun r _ _ => ?_)
    (.blocked row) _
  exact eq_of_refused (run_map_of_settled (run_attachSecondControl row r) _)

theorem toggleSwap (h : Ready d col x) (hn : n < 2 ^ 63) (row : Nat) :
    Follows c col x (InTable.toggleSwap ⟨row, col⟩) (InPlace.toggleSwap row) := by
  refine check_bind h.col_lt fun hrow => Finds.follows (.read h.col_lt hrow) (get ?_)
  dsimp only
  split
  · exact place h row _
  · refine Finds.follows (.nearestRows hn hrow) ?_
    exact firstUnoccupied (attachPartner h row)
      (fun r _ _ => eq_of_refused (run_attachPartner row r)) (.occupied row .swap) _

theorem rotateTo (h : Ready d col x) (row : Nat) (theta : Binary64) :
    Follows c col x (InTable.rotateTo ⟨row, col⟩ theta) (InPlace.rotateTo row theta) := by
  refine get (check_bind h.col_lt fun hrow => Finds.follows (.read h.col_lt hrow) ?_)
  -- The rotation looks for the row once more, and finds it.
  have hrotate := rotate (c := c) h row (theta - (x.node row).theta)
  unfold InPlace.rotate checkRow at hrotate
  rw [if_pos hrow] at hrotate
  exact hrotate

end Follows

/-! ### Circuits -/

/-- A gesture looks before anything else whether its cell is there. -/
theorem run_silently {cell : Cell} {k : Unit → InTable Unit} {q : InPlace n Unit}
    (change : Column n → Except (EditError Nat) (Column n))
    (hin : cell.col < d → Follows c cell.col (c.column cell.col) (check cell >>= k) q)
    (hsettled : q.run (c.column cell.col) =
      settled (c.column cell.col) (·, ()) (change (c.column cell.col))) :
    (silently (check cell >>= k)).run c.table =
      seen c (c.edit cell fun column => Editor.silently (change column)) :=
  run_of_follows cell (fun hcol => (hin hcol).map _) (run_told hsettled none) fun hout =>
    ((refuses_check hout).bind k).map _

theorem run_accept_bind {value : Except (EditError Cell) β} {k : β → InTable (Option Nat)}
    {r : β → Except (EditError Cell) (Circuit n d × Option Nat)}
    (h : ∀ b, value = .ok b → (k b).run c.table = seen c (r b)) :
    (accept value >>= k).run c.table = seen c (value >>= r) := by
  cases value with
  | error fault => rfl
  | ok b => exact h b rfl

/-- A command on the table of a circuit does what the command does to the circuit. -/
theorem run_attempt (hn : n < 2 ^ 63) (hlinked : ∀ col, (c.column col).Linked)
    (command : Command) : (attempt command).run c.table = seen c (Editor.attempt c command) := by
  have hword : n < UInt64.size := Nat.lt_trans hn (by decide)
  have hready : ∀ {cell : Cell}, cell.col < d → Ready d cell.col (c.column cell.col) :=
    fun hcol => ⟨hcol, hword, hlinked _⟩
  have hplace : ∀ (cell : Cell) (g : NewGate), (silently (placeNew cell g)).run c.table =
      seen c (c.edit cell fun column => Editor.silently (column.placeNew cell.row g)) :=
    fun cell g => run_silently _ (fun hcol => .placeNew (hready hcol) cell.row g)
      (run_placeNew cell.row g)
  have hedit : ∀ (col : Nat) (e : ColumnEdit), (edit col e).run c.table = seen c (c.apply col e) :=
    run_edit hword hlinked
  cases command with
  | place cell kind angles => exact run_accept_bind fun g _ => hplace cell g
  | placeText cell kind text =>
    exact run_accept_bind fun angles _ => run_accept_bind fun g _ => hplace cell g
  | toggleGate cell kind =>
    exact run_silently (·.toggleGate cell.row kind)
      (fun hcol => .toggleGate (hready hcol) cell.row kind)
      (run_toggleGate (hlinked cell.col) cell.row kind)
  | toggleControl cell =>
    exact run_silently (·.toggleControl cell.row)
      (fun hcol => .toggleControl (hready hcol) cell.row) (run_toggleControl cell.row)
  | addSecondControl cell =>
    dsimp only [attempt, Editor.attempt]
    refine run_of_follows cell
      (fun hcol => (Follows.addSecondControl (hready hcol) hn cell.row).map _) ?_
      fun hout => ((refuses_check hout).bind _).map _
    rw [run_map_of_settled (run_addSecondControl cell.row), settled_map]
    rfl
  | toggleSwap cell =>
    exact run_silently (·.toggleSwap cell.row)
      (fun hcol => .toggleSwap (hready hcol) hn cell.row) (run_toggleSwap cell.row)
  | moveControl cell direction => exact hedit cell.col (.moveControl cell.row direction)
  | delete cell => exact hedit cell.col (.delete cell.row)
  | rotate cell delta => exact hedit cell.col (.rotate cell.row delta)
  | rotateTo cell text =>
    exact run_accept_bind fun theta _ =>
      run_silently (·.rotateTo cell.row theta)
        (fun hcol => .rotateTo (hready hcol) cell.row theta) (run_rotateTo cell.row theta)

theorem refuses_attempt {t : Table} {command : Command} {cell : Cell}
    (hfirst : command.firstChecked? = some cell)
    (h : ¬(cell.row < t.wires ∧ cell.col < t.depth)) :
    Refuses t (attempt command) (.outOfRange cell) := by
  cases command with
  | place | placeText | rotateTo => cases hfirst
  | toggleGate | toggleControl | addSecondControl | toggleSwap =>
    cases hfirst
    exact ((refuses_check h).bind _).map _
  | moveControl place direction =>
    cases hfirst
    exact refuses_edit (.moveControl cell.row direction) h
  | delete place =>
    cases hfirst
    exact refuses_edit (.delete cell.row) h
  | rotate place delta =>
    cases hfirst
    exact refuses_edit (.rotate cell.row delta) h

end InTable

end QuantumCircuit

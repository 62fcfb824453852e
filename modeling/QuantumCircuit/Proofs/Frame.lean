import Mathlib.Data.List.Nodup
import QuantumCircuit.Proofs.ProgramLines

/-!
# What an edit leaves alone

An edit of a gate writes marks into other rows and takes marks away from them.  It puts no gate
there and takes none away, for the rows that it marks or empties were linked to the gate or free,
and neither holds a gate (`Column.Tidy.sameGate_change`).  The gate itself stays one, so a change
takes no line from the program (`Circuit.ChangedAt.length_programLines`).

* `others_kept` : every command that deletes no gate leaves the gates in all other cells as they
  are and brings none there, and changes at most one line of the program.
-/

namespace QuantumCircuit

/-- A node holds a gate exactly if its symbol stands for one. -/
theorem Node.isNull_kind (x : Node) : x.kind.isNull = x.symbol.isNull := by
  cases hs : x.symbol.isNull with
  | true => rw [(kind_eq_plain_iff hs).2 rfl, Kind.isNull, hs]
  | false =>
    cases hk : x.kind with
    | plain s =>
      have hsymbol : x.symbol = s := by rw [← x.symbol_kind, hk, Kind.symbol]
      rw [Kind.isNull, ← hsymbol, hs]
    | _ => rfl

namespace Column

variable {n : Nat} {c c' c'' : Column n}

/-! ### Columns -/

/-- The row holds the same node in both columns, or no gate in either. -/
def SameGate (c c' : Column n) (r : Nat) : Prop :=
  c'.node r = c.node r ∨ (c.node r).symbol.isNull = true ∧ (c'.node r).symbol.isNull = true

theorem SameGate.trans {r : Nat} (h : c.SameGate c' r) (h' : c'.SameGate c'' r) :
    c.SameGate c'' r := by
  rcases h with heq | ⟨hnull, hnull'⟩
  · rw [SameGate, ← heq]
    exact h'
  · rcases h' with heq | ⟨-, hnull''⟩
    · exact .inr ⟨hnull, by rwa [heq]⟩
    · exact .inr ⟨hnull, hnull''⟩

/-- Beside the row itself only rows without a gate are written. -/
theorem Admits.sameGate {row : Nat} {x : Node} {fresh : List Nat} (hx : c.Admits row x fresh)
    (h : c.Tidy) (hfresh : ∀ r ∈ fresh, (c.node r).symbol.isNull = true) {r : Nat}
    (hr : r ≠ row) : c.SameGate (c.rewritten row x fresh) r := by
  by_cases hlt : r < n
  · rw [SameGate, node_rewritten _ _ _ _ hlt]
    split_ifs with hmem hcontrol hstale
    · exact .inr ⟨hfresh r hmem, rfl⟩
    · have hnull : (c.node r).symbol.isNull = true := by
        rcases hx.mem_or_fresh r (Node.mem_links_of_mem_controls hcontrol) with hold | hnew
        · exact h.isNull_of_mem hold
        · exact hfresh r hnew
      exact .inr ⟨hnull, rfl⟩
    · exact .inr ⟨isNull_of_isStale hstale, rfl⟩
    · exact .inl rfl
  · exact .inl (by rw [node_of_le _ (Nat.not_lt.1 hlt), node_of_le _ (Nat.not_lt.1 hlt)])

theorem Tidy.sameGate_fillGap (h : c.Tidy) (gap r : Nat) : c.SameGate (c.fillGap gap) r := by
  by_cases hempty : c.reading gap = .empty
  · by_cases hlt : r < n
    · rw [SameGate, h.node_fillGap hempty hlt]
      split_ifs with hr
      · exact .inr ⟨by rw [hr, (reading_eq_empty_iff.1 hempty).1]; rfl, rfl⟩
      · exact .inl rfl
    · exact .inl (by rw [node_of_le _ (Nat.not_lt.1 hlt), node_of_le _ (Nat.not_lt.1 hlt)])
  · rw [Column.fillGap, if_neg (by rwa [beq_iff_eq])]
    exact .inl rfl

/-- A change of a tidy column does nothing, or it stores a gate that the row admits, and then it may
mark a row as a passing wire. -/
theorem Tidy.change_cases (h : c.Tidy) {row : Nat} (hchange : c.Change row c') :
    c' = c ∨ ∃ x fresh, c.Admits row x fresh ∧ x.symbol.isNull = false ∧
      (∀ r ∈ fresh, (c.node r).symbol.isNull = true) ∧
      (c' = c.rewritten row x fresh ∨
        (c.rewritten row x fresh).Tidy ∧ ∃ gap, c' = (c.rewritten row x fresh).fillGap gap) := by
  have hgate : ∀ {x : Node} {fresh : List Nat}, (c.node row).Altered x fresh →
      x.symbol.isNull = false := by
    intro x fresh hx
    rw [hx.symbol_eq]
    exact h.isNull_of_altered hx
  cases hchange with
  | keep => exact .inl rfl
  | @put g x hempty hnew hfits =>
    have hadmits := h.admits_put hempty hnew hfits
    refine .inr ⟨x, [], hadmits, ?_, by simp, .inl ?_⟩
    · rw [(newNode_eq_ok hnew).1]
      exact g.isNull_symbol
    · exact overwrite_eq_rewritten fun r hr => hadmits.links_of_mem_controls h hr
  | @revise x hx hfits =>
    have hadmits := h.admits_altered hx hfits (by simp)
    exact .inr ⟨x, [], hadmits, hgate hx, by simp,
      .inl (overwrite_eq_rewritten fun r hr => hadmits.links_of_mem_controls h hr)⟩
  | @link x new hx hfree hfits =>
    have hadmits : c.Admits row x [new] := h.admits_altered hx hfits (by simpa using hfree)
    exact .inr ⟨x, [new], hadmits, hgate hx, by simpa using isNull_of_isFree hfree,
      .inl (h.link_eq hadmits)⟩
  | @stretch x new gap hx hfree hfits hgap =>
    have hadmits : c.Admits row x [new] := h.admits_altered hx hfits (by simpa using hfree)
    have htidy := h.link hadmits hfits
    rw [h.link_eq hadmits] at htidy
    exact .inr ⟨x, [new], hadmits, hgate hx, by simpa using isNull_of_isFree hfree,
      .inr ⟨htidy, gap, by rw [h.link_eq hadmits]⟩⟩

/-- A change of the gate in a row puts no gate into another row and takes none away there. -/
theorem Tidy.sameGate_change (h : c.Tidy) {row : Nat} (hchange : c.Change row c') {r : Nat}
    (hr : r ≠ row) : c.SameGate c' r := by
  rcases h.change_cases hchange with rfl | ⟨x, fresh, hadmits, -, hfresh, rfl | ⟨htidy, gap, rfl⟩⟩
  · exact .inl rfl
  · exact hadmits.sameGate h hfresh hr
  · exact (hadmits.sameGate h hfresh hr).trans (htidy.sameGate_fillGap gap r)

/-- A gate that is changed stays a gate. -/
theorem Tidy.isNull_change (h : c.Tidy) {row : Nat} (hchange : c.Change row c')
    (hgate : (c.node row).symbol.isNull = false) : (c'.node row).symbol.isNull = false := by
  rcases h.change_cases hchange with rfl | ⟨x, fresh, hadmits, hx, -, rfl | ⟨htidy, gap, rfl⟩⟩
  · exact hgate
  · rwa [hadmits.node_row, Node.symbol_atRow]
  · rcases htidy.sameGate_fillGap gap row with heq | ⟨hnull, -⟩
    · rwa [heq, hadmits.node_row, Node.symbol_atRow]
    · rw [hadmits.node_row, Node.symbol_atRow, hx] at hnull
      cases hnull

end Column

namespace Circuit

variable {n d : Nat} {c c' : Circuit n d}

/-- In an edited circuit the other cells keep their gates and get none. -/
theorem ChangedAt.sameGate {cell : Cell} (hchange : c.ChangedAt cell c') (h : c.EditReachable)
    {other : Cell} (hne : other ≠ cell) :
    (c.column other.col).SameGate (c'.column other.col) other.row := by
  by_cases hcol : other.col = cell.col
  · have hrow : other.row ≠ cell.row := by
      intro hrow
      apply hne
      rw [Cell.mk.injEq]
      exact ⟨hrow, hcol⟩
    rw [hcol]
    exact (h.tidy cell.col).sameGate_change hchange.change hrow
  · rw [hchange.column_eq _ hcol]
    exact .inl rfl

/-! ### The line of a cell -/

theorem nodup_cells (c : Circuit n d) : c.cells.Nodup := by
  refine List.nodup_flatMap.2 ⟨fun col _ => ?_, ?_⟩
  · refine List.Nodup.map (fun row row' heq => ?_) List.nodup_range
    exact (Cell.mk.injEq .. ▸ heq).1
  · refine List.nodup_range.imp fun hne cell hcell hcell' => ?_
    obtain ⟨row, -, rfl⟩ := List.mem_map.1 hcell
    obtain ⟨row', -, heq⟩ := List.mem_map.1 hcell'
    exact hne (Cell.mk.injEq .. ▸ heq).2.symm

/-- A node without a gate has no line. -/
theorem lineAt_of_isNull {cell : Cell} (h : (c.node cell).kind.isNull = true) :
    c.lineAt cell = none := by
  rw [lineAt_eq, if_neg (Classical.not_not.2 (isNull_iff_mem.1 h))]

theorem lineAt_of_blank {cell : Cell} {row : Nat} (h : c.node cell = .blank row) :
    c.lineAt cell = none := by
  refine lineAt_of_isNull ?_
  rw [h, Node.isNull_kind]
  rfl

/-- A cell that is not in the circuit has no line. -/
theorem lineAt_eq_none {cell : Cell} (h : cell ∉ c.cells) : c.lineAt cell = none := by
  have hnode : c.node cell = .blank cell.row := by
    by_cases hcol : cell.col < d
    · refine (c.column cell.col).node_of_le (Nat.not_lt.1 fun hrow => h ?_)
      exact List.mem_flatMap.2 ⟨cell.col, List.mem_range.2 hcol,
        List.mem_map.2 ⟨cell.row, List.mem_range.2 hrow, rfl⟩⟩
    · rw [node, column, dif_neg hcol, Column.node_blank]
  exact lineAt_of_isNull (by rw [hnode, Node.isNull_kind]; rfl)

/-- Programs that agree on the lines of all cells but one differ at most in the line of that
cell. -/
theorem programLines_split {cell : Cell} (h : ∀ other, other ≠ cell →
    c'.lineAt other = c.lineAt other) :
    ∃ before after, c.programLines = before ++ (c.lineAt cell).toList ++ after ∧
      c'.programLines = before ++ (c'.lineAt cell).toList ++ after := by
  have hlines : ∀ cells : List Cell, cell ∉ cells →
      cells.filterMap c'.lineAt = cells.filterMap c.lineAt := by
    intro cells hcell
    exact List.filterMap_congr fun other hother => h other fun heq => hcell (heq ▸ hother)
  rw [programLines_eq, programLines_eq]
  by_cases hcell : cell ∈ c.cells
  · obtain ⟨first, rest, hsplit⟩ := List.append_of_mem hcell
    have hnodup : (first ++ cell :: rest).Nodup := hsplit ▸ c.nodup_cells
    have hfirst : cell ∉ first := fun hmem =>
      (List.nodup_append.1 hnodup).2.2 cell hmem cell List.mem_cons_self rfl
    have hrest : cell ∉ rest := (List.nodup_cons.1 (List.nodup_append.1 hnodup).2.1).1
    have hcells : c'.cells = first ++ cell :: rest := hsplit
    refine ⟨preamble n ++ first.filterMap c.lineAt, rest.filterMap c.lineAt, ?_, ?_⟩
    · rw [hsplit]
      cases hline : c.lineAt cell <;> simp [hline]
    · rw [hcells, ← hlines first hfirst, ← hlines rest hrest]
      cases hline : c'.lineAt cell <;> simp [hline]
  · have hcell' : cell ∉ c'.cells := hcell
    refine ⟨preamble n ++ c.cells.filterMap c.lineAt, [], ?_, ?_⟩
    · simp [lineAt_eq_none hcell]
    · rw [lineAt_eq_none hcell', ← hlines _ hcell]
      simp [cells]

/-- The other cells of an edited circuit keep their lines. -/
theorem ChangedAt.lineAt_eq {cell : Cell} (hchange : c.ChangedAt cell c') (h : c.EditReachable)
    {other : Cell} (hne : other ≠ cell) : c'.lineAt other = c.lineAt other := by
  rcases hchange.sameGate h hne with heq | ⟨hnull, hnull'⟩
  · rw [lineAt, node, heq, lineAt, node]
  · rw [lineAt_of_isNull (by rwa [Node.isNull_kind]), lineAt_of_isNull (by rwa [Node.isNull_kind])]

/-- A change of a gate does not make the program of an edited circuit shorter. -/
theorem ChangedAt.length_programLines {cell : Cell} (hchange : c.ChangedAt cell c')
    (h : c.EditReachable) : c.programLines.length ≤ c'.programLines.length := by
  obtain ⟨before, after, hold, hnew⟩ :=
    programLines_split fun _ hne => hchange.lineAt_eq h hne
  have hline : (c.lineAt cell).toList.length ≤ (c'.lineAt cell).toList.length := by
    cases hnull : (c.node cell).kind.isNull with
    | true =>
      rw [lineAt_of_isNull hnull]
      exact Nat.zero_le _
    | false =>
      rw [Node.isNull_kind] at hnull
      have hgate : (c'.node cell).kind.isNull = false := by
        rw [Node.isNull_kind]
        exact (h.tidy cell.col).isNull_change hchange.change hnull
      obtain ⟨i, hi⟩ := Option.isSome_iff_exists.1 (Node.isSome_instruction?_iff.2 hgate)
      rw [show c'.lineAt cell = some i.toText by rw [lineAt, hi, Option.map_some]]
      cases c.lineAt cell <;> simp
  rw [hold, hnew]
  simp only [List.length_append]
  omega

end Circuit

namespace Editor

variable {n d : Nat} {e e' : Editor n d}

/-- A command that deletes no gate changes one cell at most: every other cell that holds a gate
keeps it, no other cell gets one, and of the program only the line of the cell may change. -/
theorem others_kept (h : e.circuit.EditReachable) {command : Command} {told : Option Nat}
    (hok : e.perform command = (e', .ok told)) (hkeep : ¬ command.Deletes e.circuit) :
    (∀ cell, cell ≠ command.cell → (e.circuit.node cell).kind.isNull = false →
      e'.circuit.node cell = e.circuit.node cell) ∧
    (∀ cell, cell ≠ command.cell → (e'.circuit.node cell).kind.isNull = false →
      (e.circuit.node cell).kind.isNull = false) ∧
    ∃ before after,
      e.circuit.programLines = before ++ (e.circuit.lineAt command.cell).toList ++ after ∧
      e'.circuit.programLines = before ++ (e'.circuit.lineAt command.cell).toList ++ after := by
  have hattempt : attempt e.circuit command = .ok (e'.circuit, told) := by
    unfold perform at hok
    split at hok
    · cases hok
      assumption
    · cases hok
  have hsame : ∀ cell, cell ≠ command.cell → e'.circuit.node cell = e.circuit.node cell ∨
      (e.circuit.node cell).kind.isNull = true ∧ (e'.circuit.node cell).kind.isNull = true := by
    intro cell hne
    simp only [Node.isNull_kind]
    exact (Circuit.changedAt_attempt hattempt hkeep).sameGate h hne
  refine ⟨fun cell hne hgate => ?_, fun cell hne hgate => ?_,
    Circuit.programLines_split fun cell hne => ?_⟩
  · rcases hsame cell hne with heq | ⟨hnull, -⟩
    · exact heq
    · rw [hgate] at hnull
      cases hnull
  · rcases hsame cell hne with heq | ⟨-, hnull⟩
    · rwa [heq] at hgate
    · rw [hgate] at hnull
      cases hnull
  · rcases hsame cell hne with heq | ⟨hnull, hnull'⟩
    · rw [Circuit.lineAt, heq, Circuit.lineAt]
    · rw [Circuit.lineAt_of_isNull hnull, Circuit.lineAt_of_isNull hnull']

/-- The stretched gate, with a Hadamard gate between it and its second control. -/
def straddled : Circuit 5 1 :=
  Circuit.stretched.after (.command (.place ⟨3, 0⟩ (.plain .hadamard) []))

/-- An editor of that circuit. -/
def straddler : Editor 5 1 := ⟨straddled, ⟨0, 0⟩, .pi, ""⟩

/-- Dropping the controls empties the rows above and below, and the Hadamard gate stays. -/
theorem others_kept_straddled :
    straddler.circuit.EditReachable ∧ ¬ (Command.toggleControl ⟨2, 0⟩).Deletes straddler.circuit ∧
      (straddler.perform (.toggleControl ⟨2, 0⟩)).2 = .ok none ∧
      (straddler.circuit.node ⟨3, 0⟩).kind = .plain .hadamard ∧
      (straddler.perform (.toggleControl ⟨2, 0⟩)).1.circuit.node ⟨3, 0⟩ =
        straddler.circuit.node ⟨3, 0⟩ ∧
      ∃ before after,
        straddler.circuit.programLines = before ++ ["ccx q[0],q[4],q[2];"] ++ after ∧
        (straddler.perform (.toggleControl ⟨2, 0⟩)).1.circuit.programLines =
          before ++ ["x q[2];"] ++ after := by
  have hreach : straddler.circuit.EditReachable := by
    dsimp only [straddler]
    exact Circuit.editReachable_stretched.after _ rfl
  have hkeep : ¬ (Command.toggleControl ⟨2, 0⟩).Deletes straddler.circuit := not_false
  have hok : (straddler.perform (.toggleControl ⟨2, 0⟩)).2 = .ok none := by decide +kernel
  have hkind : (straddler.circuit.node ⟨3, 0⟩).kind = .plain .hadamard := by decide +kernel
  have hrun : straddler.perform (.toggleControl ⟨2, 0⟩) =
      ((straddler.perform (.toggleControl ⟨2, 0⟩)).1, .ok none) := by
    rw [← hok]
  have h := others_kept hreach hrun hkeep
  have hbefore : straddler.circuit.lineAt ⟨2, 0⟩ = some "ccx q[0],q[4],q[2];" := by decide +kernel
  have hafter : (straddler.perform (.toggleControl ⟨2, 0⟩)).1.circuit.lineAt ⟨2, 0⟩ =
      some "x q[2];" := by
    decide +kernel
  refine ⟨hreach, hkeep, hok, hkind, h.1 ⟨3, 0⟩ (by decide) (by rw [hkind]; rfl), ?_⟩
  simpa only [Command.cell, hbefore, hafter, Option.toList_some] using h.2.2

end Editor

end QuantumCircuit

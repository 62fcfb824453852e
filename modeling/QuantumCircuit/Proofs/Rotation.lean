import QuantumCircuit.Proofs.Column.Attachment
import QuantumCircuit.Proofs.Frame

/-!
# Rotating a gate

A rotated X or Y has no controlled form, so a controlled X or Y can only be turned to an angle at
which it is not rotated.  `Node.Turns` says this of a node alone; a placement of the turned node
asks for nothing more, because its links are those that the gate had (`Column.Tidy.fits_revised`).

* `rotate_iff` : in an edited circuit a gate is rotated exactly if it can be turned, and nothing
  changes but its angle.

What a rotation does write beside the gate are marks in the rows of its controls, and these cannot
be seen.
-/

namespace QuantumCircuit

namespace Kind

/-- With a control a rotatable gate is of a controlled kind if it is a Z or not rotated. -/
theorem isControlled_of_iff {s : Symbol} (hs : s.isRotatable = true) (r second : Bool) :
    (of s r true second).isControlled = true ↔ s = .z ∨ r = false := by
  revert r second
  cases s with
  | x | y | z => decide
  | _ => cases hs

end Kind

namespace Node

variable {x : Node} {delta : Binary64}

/-- The node after a turn by a further angle, within one full turn. -/
def turnedBy (x : Node) (delta : Binary64) : Node :=
  { x with theta := (x.theta + delta).wrap .turn }

@[simp] theorem controls_turnedBy : (x.turnedBy delta).controls = x.controls := rfl
@[simp] theorem links_turnedBy : (x.turnedBy delta).links = x.links := rfl

/-- The gate can be turned: it rotates about an axis, and if it is controlled, it is a Z, or it is
not rotated after the turn. -/
structure Turns (x : Node) (delta : Binary64) : Prop where
  symbol : x.symbol = .x ∨ x.symbol = .y ∨ x.symbol = .z
  controlled : x.controls = [] ∨ x.symbol = .z ∨
    Angle.isNeutral ((x.theta + delta).wrap .turn) = true

theorem isRotatable_symbol_iff :
    x.symbol.isRotatable = true ↔ x.symbol = .x ∨ x.symbol = .y ∨ x.symbol = .z := by
  cases x.symbol <;> simp [Symbol.isRotatable, Symbol.axis?]

/-- A node with controls that act has a first one. -/
theorem isSome_control (hact : x.controlsAct = true) (h : x.controls ≠ []) :
    x.control.isSome = true :=
  (isSome_or_isSome_iff.2 h).elim id (tells_kind hact).control_of_second

theorem isControlled_turnedBy_iff (hact : x.controlsAct = true) (h : x.controls ≠ [])
    (hs : x.symbol.isRotatable = true) :
    (x.turnedBy delta).kind.isControlled = true ↔
      x.symbol = .z ∨ Angle.isNeutral ((x.theta + delta).wrap .turn) = true := by
  have hkind : (x.turnedBy delta).kind = .of x.symbol
      (!Angle.isNeutral ((x.theta + delta).wrap .turn)) true x.secondControl.isSome := by
    rw [← isSome_control hact h]
    rfl
  rw [hkind, Kind.isControlled_of_iff hs, Bool.not_eq_false']

/-- What a rotation asks for. -/
theorem turns_iff (hact : x.controlsAct = true) :
    (x.kind.isRotatable &&
      ((x.turnedBy delta).controls.isEmpty || (x.turnedBy delta).kind.isControlled)) = true ↔
      x.Turns delta := by
  rw [Bool.and_eq_true, Bool.or_eq_true, Kind.isRotatable, symbol_kind, controls_turnedBy,
    List.isEmpty_iff]
  by_cases hs : x.symbol.isRotatable = true
  · by_cases h : x.controls = []
    · exact iff_of_true ⟨hs, .inl h⟩ ⟨isRotatable_symbol_iff.1 hs, .inl h⟩
    · rw [isControlled_turnedBy_iff hact h hs]
      exact ⟨fun hok => ⟨isRotatable_symbol_iff.1 hs, hok.2⟩, fun ht => ⟨hs, ht.controlled⟩⟩
  · exact iff_of_false (fun hok => hs hok.1) fun ht => hs (isRotatable_symbol_iff.2 ht.symbol)

/-- The controls of a gate act on it also after the turn. -/
theorem Turns.controlsAct (ht : x.Turns delta) (hact : x.controlsAct = true) :
    (x.turnedBy delta).controlsAct = true := by
  have hs := isRotatable_symbol_iff.2 ht.symbol
  refine controlsAct_iff.2 ⟨fun h => ?_, fun hsecond => ?_⟩
  · exact (isControlled_turnedBy_iff hact h hs).2 (ht.controlled.resolve_left h)
  · -- Only an X has two controls.
    have hsecond : x.secondControl.isSome = true := hsecond
    have hfirst := (tells_kind hact).control_of_second hsecond
    have hx : x.symbol = .x := by
      rw [← x.symbol_kind, (controlsAct_iff.1 hact).2 hsecond]
      rfl
    have hne : x.controls ≠ [] := isSome_or_isSome_iff.1 (.inl hfirst)
    have hneutral := (ht.controlled.resolve_left hne).resolve_left (by rw [hx]; decide)
    show Kind.of x.symbol (!Angle.isNeutral ((x.theta + delta).wrap .turn)) x.control.isSome
      x.secondControl.isSome = .toffoli
    rw [hx, hneutral, hfirst, hsecond]
    rfl

end Node

namespace Column

variable {n : Nat} {c : Column n} {row : Nat} {x : Node} {delta : Binary64}

/-- A node can be put in the place of one with the same links. -/
theorem Tidy.fits_revised (h : c.Tidy) (hrow : row < n) (hlinks : x.links = (c.node row).links)
    (hact : x.controlsAct = true) : c.Fits row x :=
  h.fits_of_sublist hrow (hlinks ▸ List.Sublist.refl _) hact

/-- A node that no node is linked to stays when another one is put back with the links that it
had. -/
theorem node_revised (hlinks : x.links = (c.node row).links) {r : Nat} (hr : r ≠ row)
    (hunlinked : r ∉ (c.node row).links) : (c.rewritten row x []).node r = c.node r := by
  by_cases hlt : r < n
  · have hcontrols : r ∉ x.controls := fun hmem =>
      hunlinked (hlinks ▸ Node.mem_links_of_mem_controls hmem)
    -- A wire that the old links pass is passed by the new ones.
    have hstale : ¬ c.isStale row x.links r = true := by
      intro hstale
      rcases isStale_iff.1 hstale with ⟨hmem, -⟩ | ⟨⟨link, hl, hbetween⟩, -, hkeep, -⟩
      · exact hunlinked (Node.mem_links_of_mem_controls hmem)
      · exact hkeep link (hlinks ▸ hl) hbetween
    rw [node_rewritten _ _ _ _ hlt, if_neg List.not_mem_nil, if_neg hcontrols, if_neg hr,
      if_neg hstale]
  · rw [node_of_le _ (Nat.not_lt.1 hlt), node_of_le _ (Nat.not_lt.1 hlt)]

/-- The column in which the gate in a row has been turned. -/
def turned (c : Column n) (row : Nat) (delta : Binary64) : Column n :=
  c.rewritten row ((c.node row).turnedBy delta) []

section

variable (h : c.Tidy) (hrow : row < n)

include h hrow

theorem Tidy.admits_turned (ht : (c.node row).Turns delta) :
    c.Admits row ((c.node row).turnedBy delta) [] := by
  have hrotatable := Node.isRotatable_symbol_iff.2 ht.symbol
  exact h.admits_altered (Node.altered_theta hrotatable _)
    (h.fits_revised hrow Node.links_turnedBy (ht.controlsAct (h.controlsAct row))) (by simp)

theorem Tidy.rotate_eq_ok (ht : (c.node row).Turns delta) :
    c.rotate row delta = .ok (c.turned row delta) := by
  have hfits : c.Fits row ((c.node row).turnedBy delta) :=
    h.fits_revised hrow Node.links_turnedBy (ht.controlsAct (h.controlsAct row))
  have hwrite : c.overwrite row ((c.node row).turnedBy delta) = c.turned row delta :=
    overwrite_eq_rewritten fun _ hr => (h.admits_turned hrow ht).links_of_mem_controls h hr
  rw [rotate, checkRow, if_pos hrow]
  refine (if_pos ((Node.turns_iff (h.controlsAct row)).2 ht)).trans ?_
  exact place_eq_ok_iff.2 ⟨placeFault?_eq_none_iff.2 hfits, hwrite⟩

theorem Tidy.rotate_eq_error (ht : ¬ (c.node row).Turns delta) :
    c.rotate row delta = .error (.unrotatable (c.reading row)) := by
  rw [rotate, checkRow, if_pos hrow]
  exact if_neg fun hok => ht ((Node.turns_iff (h.controlsAct row)).1 hok)

theorem Tidy.tidy_turned (ht : (c.node row).Turns delta) : (c.turned row delta).Tidy :=
  h.change (change_rotate (h.rotate_eq_ok hrow ht))

theorem Tidy.node_turned (ht : (c.node row).Turns delta) :
    (c.turned row delta).node row = (c.node row).turnedBy delta := by
  rw [turned, (h.admits_turned hrow ht).node_row]
  exact Node.atRow_self (h.row_node row)

/-- All other rows show what they showed, though the rows of controls may have been marked. -/
theorem Tidy.reading_turned (ht : (c.node row).Turns delta) {r : Nat} (hr : r ≠ row) :
    (c.turned row delta).reading r = c.reading r := by
  refine h.reading_eq_of_row?_iff (h.tidy_turned hrow ht) (fun other l => ?_) fun hno => ?_
  · by_cases hother : other = row
    · rw [hother, h.node_turned hrow ht]
      cases l <;> rfl
    · rw [turned, (h.admits_turned hrow ht).row?_rewritten h hother]
  · exact node_revised Node.links_turnedBy hr (hno row)

end

end Column

namespace Circuit

variable {n d : Nat} {c : Circuit n d}

theorem EditReachable.apply_rotate_eq_ok (h : c.EditReachable) {cell : Cell}
    (hcell : c.contains cell = true) {delta : Binary64} (ht : (c.node cell).Turns delta) :
    c.apply cell.col (.rotate cell.row delta) =
      .ok (c.withColumn cell.col ((c.column cell.col).turned cell.row delta), none) := by
  obtain ⟨hrow, hcol⟩ := contains_iff.1 hcell
  exact edit_eq_ok_iff.2
    ⟨hcol, _, congrArg (Except.map _) ((h.tidy cell.col).rotate_eq_ok hrow ht), rfl⟩

theorem EditReachable.apply_rotate_eq_error (h : c.EditReachable) {cell : Cell}
    (hcell : c.contains cell = true) {delta : Binary64} (ht : ¬ (c.node cell).Turns delta) :
    c.apply cell.col (.rotate cell.row delta) = .error (.unrotatable (c.reading cell)) := by
  obtain ⟨hrow, hcol⟩ := contains_iff.1 hcell
  exact edit_of_error (e := .unrotatable (c.reading cell)) hcol
    (congrArg (Except.map _) ((h.tidy cell.col).rotate_eq_error hrow ht))

/-- Rotating a gate of an edited circuit by any angle.  It is done exactly if the gate can be
turned: it is an X, Y or Z, and if it has controls, it is a Z or is not rotated afterwards.
Otherwise the rotation is refused for the kind that the cell shows.  The gate keeps everything but
its angle; all other cells show what they showed, and their lines in the program stay. -/
theorem rotate_iff (h : c.EditReachable) {cell : Cell} (hcell : c.contains cell = true)
    (delta : Binary64) :
    ((∃ c' told, c.apply cell.col (.rotate cell.row delta) = .ok (c', told)) ↔
      (c.node cell).Turns delta) ∧
    (¬ (c.node cell).Turns delta →
      c.apply cell.col (.rotate cell.row delta) = .error (.unrotatable (c.reading cell))) ∧
    ∀ c' told, c.apply cell.col (.rotate cell.row delta) = .ok (c', told) →
      told = none ∧
      c'.node cell =
        { c.node cell with theta := ((c.node cell).theta + delta).wrap .turn } ∧
      (∀ other, other ≠ cell → c'.reading other = c.reading other) ∧
      (∀ other, other ≠ cell → c'.lineAt other = c.lineAt other) ∧
      ∃ before after, c.programLines = before ++ (c.lineAt cell).toList ++ after ∧
        c'.programLines = before ++ (c'.lineAt cell).toList ++ after := by
  obtain ⟨hrow, hcol⟩ := contains_iff.1 hcell
  by_cases ht : (c.node cell).Turns delta
  · have hok := h.apply_rotate_eq_ok hcell ht
    refine ⟨iff_of_true ⟨_, _, hok⟩ ht, fun hno => absurd ht hno, ?_⟩
    rintro c' told hok'
    have hattempt : Editor.attempt c (.rotate cell delta) = .ok (c', told) := hok'
    have hlines : ∀ other, other ≠ cell → c'.lineAt other = c.lineAt other := fun other hne =>
      (changedAt_attempt hattempt not_false).lineAt_eq h hne
    rw [hok] at hok'
    cases hok'
    refine ⟨rfl, ?_, fun other hne => ?_, hlines, programLines_split hlines⟩
    · rw [node, column_withColumn hcol, if_pos rfl]
      exact (h.tidy cell.col).node_turned hrow ht
    · rw [reading, column_withColumn hcol]
      split_ifs with hk
      · have hne : other.row ≠ cell.row := fun hr => hne (by rw [Cell.mk.injEq]; exact ⟨hr, hk⟩)
        rw [(h.tidy cell.col).reading_turned hrow ht hne, reading, hk]
      · rfl
  · have herror := h.apply_rotate_eq_error hcell ht
    refine ⟨iff_of_false ?_ ht, fun _ => herror, fun _ _ hok => ?_⟩
    · rintro ⟨_, _, hok⟩
      rw [herror] at hok
      cases hok
    · rw [herror] at hok
      cases hok

/-- An X in row 1 that is controlled from row 0, and a Z in row 2 that is controlled from row 3. -/
def braced : Circuit 4 1 :=
  (((blank.after (.command (.place ⟨1, 0⟩ (.plain .x) []))).after
    (.edit 0 (.attachControl 1 0))).after
    (.command (.place ⟨2, 0⟩ (.plain .z) []))).after
    (.edit 0 (.attachControl 2 3))

/-- The Z can be turned by one radian, and the X cannot. -/
theorem rotate_iff_braced :
    braced.EditReachable ∧ braced.contains ⟨2, 0⟩ = true ∧ braced.contains ⟨1, 0⟩ = true ∧
      (braced.node ⟨2, 0⟩).Turns 1 ∧ ¬ (braced.node ⟨1, 0⟩).Turns 1 ∧
      braced.apply 0 (.rotate 1 1) = .error (.unrotatable (.controlled .x)) ∧
      ∃ c', braced.apply 0 (.rotate 2 1) = .ok (c', none) ∧
        (c'.node ⟨2, 0⟩).kind = .controlled .rotatedZ ∧ c'.reading ⟨3, 0⟩ = .control ∧
        c'.lineAt ⟨1, 0⟩ = some "cx q[0],q[1];" := by
  have hreach : braced.EditReachable :=
    (((EditReachable.blank.after _ rfl).after _ rfl).after _ rfl).after _ rfl
  have hz : (braced.node ⟨2, 0⟩).symbol = .z := by decide +kernel
  have hturns : (braced.node ⟨2, 0⟩).Turns 1 := ⟨.inr (.inr hz), .inr (.inl hz)⟩
  have hstays : ¬ (braced.node ⟨1, 0⟩).Turns 1 := by
    rintro ⟨-, hcontrols | hsymbol | hneutral⟩
    · exact absurd hcontrols (by decide +kernel)
    · exact absurd hsymbol (by decide +kernel)
    · exact absurd hneutral (by decide +kernel)
  have hreading : braced.reading ⟨1, 0⟩ = .controlled .x := by decide +kernel
  have hcontrol : braced.reading ⟨3, 0⟩ = .control := by decide +kernel
  have hline : braced.lineAt ⟨1, 0⟩ = some "cx q[0],q[1];" := by decide +kernel
  have hx : braced.contains ⟨1, 0⟩ = true := rfl
  have hz' : braced.contains ⟨2, 0⟩ = true := rfl
  have hrefused := (rotate_iff hreach hx 1).2.1 hstays
  rw [hreading] at hrefused
  have hrotate := rotate_iff hreach hz' 1
  obtain ⟨c', told, hok⟩ := hrotate.1.2 hturns
  obtain ⟨rfl, hnode, hreadings, hlines, -⟩ := hrotate.2.2 c' told hok
  refine ⟨hreach, hz', hx, hturns, hstays, hrefused, c', hok, ?_, ?_, ?_⟩
  · rw [hnode]
    decide +kernel
  · rw [hreadings ⟨3, 0⟩ (by decide), hcontrol]
  · rw [hlines ⟨1, 0⟩ (by decide), hline]

end Circuit

end QuantumCircuit

import QuantumCircuit.Proofs.Column.Marked
import QuantumCircuit.Proofs.History

/-!
# Marks in a circuit where gates are put on top of gates

A caller who stores nodes of their own may put a gate, or the controls of a gate, on top of other
gates.  As long as none of these nodes is itself a mark (`Circuit.GateReachable`), every control
mark has an owner, but a passing wire may be left stray.

* `strays_from_crossings` : a wire becomes stray only when one action, which takes no gate away,
  costs two nodes their links over it.  In a history without such actions
  (`Circuit.OneLossReachable`) every wire lies between a node and one of its links.
* `stray_left` : such an action exists.  One gate comes on top of two gates whose links pass the
  same wire, and the wire stays.
-/

namespace QuantumCircuit

/-- The action stores a mark of its caller's making. -/
def Action.storesMark : Action → Bool
  | edit _ (.place _ x) => x.kind.isStructural
  | _ => false

/-- The action takes gates away: it deletes one, or it starts over. -/
def Action.Removes {n d : Nat} (c : Circuit n d) : Action → Prop
  | command request => request.Deletes c
  | edit _ (.delete _) => True
  | edit _ _ => False
  | reset => True

/-- A node is of the kind of a mark exactly if its symbol is a mark. -/
theorem Node.isStructural_kind (x : Node) : x.kind.isStructural = x.symbol.isStructural := by
  cases hs : x.symbol.isNull with
  | true => rw [(kind_eq_plain_iff hs).2 rfl, Kind.isStructural]
  | false =>
    rw [Symbol.isStructural_of_isNull hs]
    cases hk : x.kind with
    | plain s =>
      have hsymbol := symbol_kind x
      rw [hk] at hsymbol
      rw [Kind.isStructural, show s = x.symbol from hsymbol, Symbol.isStructural_of_isNull hs]
    | _ => rfl

/-- A node that is placed by an action that stores no mark is none. -/
theorem Action.isStructural_of_place {a : Action} (ha : a.storesMark = false) {col row : Nat}
    {x : Node} (heq : a = .edit col (.place row x)) : x.symbol.isStructural = false := by
  rw [heq] at ha
  rwa [← Node.isStructural_kind]

namespace Column

variable {n : Nat} {c c' : Column n}

theorem Marked.place (h : c.Marked) {row : Nat} {x : Node} (hx : x.symbol.isStructural = false)
    (hplace : c.place row x = .ok c') : c'.Marked := by
  obtain ⟨hfits, rfl⟩ := place_eq_ok hplace
  exact h.overwrite_gate hfits hx

theorem Marked.stray_place (h : c.Marked) {row r : Nat} {x : Node}
    (hx : x.symbol.isStructural = false) (hplace : c.place row x = .ok c') (hstray : c'.Stray r) :
    c.Stray r ∨ c.Uncovers c' r := by
  obtain ⟨hfits, rfl⟩ := place_eq_ok hplace
  exact h.stray_overwrite_gate hfits hx hstray

theorem not_stray_blank (r : Nat) : ¬ (blank : Column n).Stray r := by
  rintro ⟨hs, -⟩
  rw [node_blank, Node.symbol_blank] at hs
  cases hs

end Column

namespace Circuit

variable {n d : Nat} {c : Circuit n d}

/-- The cell is marked as a passing wire, but no link passes it. -/
def Stray (c : Circuit n d) (cell : Cell) : Prop := (c.column cell.col).Stray cell.row

/-- Two nodes whose links pass the cell have no more such links in `c'`. -/
def Uncovers (c c' : Circuit n d) (cell : Cell) : Prop :=
  (c.column cell.col).Uncovers (c'.column cell.col) cell.row

/-- The circuits that some history leads to in which nobody stores marks of their own making. -/
inductive GateReachable : Circuit n d → Prop
  | blank : GateReachable .blank
  | after {c : Circuit n d} (h : GateReachable c) (a : Action) (ha : a.storesMark = false) :
      GateReachable (c.after a)

/-- The circuits that some such history leads to in which no action costs two nodes their links
over one cell, unless it takes gates away. -/
inductive OneLossReachable : Circuit n d → Prop
  | blank : OneLossReachable .blank
  | after {c : Circuit n d} (h : OneLossReachable c) (a : Action) (ha : a.storesMark = false)
      (hloss : ¬ a.Removes c → ∀ cell, ¬ c.Uncovers (c.after a) cell) :
      OneLossReachable (c.after a)

theorem OneLossReachable.gateReachable (h : c.OneLossReachable) : c.GateReachable := by
  induction h with
  | blank => exact .blank
  | after _ a ha _ ih => exact ih.after a ha

/-! ### One action -/

/-- An action that takes gates away leaves a column alone, empties it, or deletes a gate of it. -/
theorem column_after_of_removes {a : Action} (ha : a.Removes c) (k : Nat) :
    (c.after a).column k = c.column k ∨ (c.after a).column k = .blank ∨
      ∃ gate, (c.after a).column k = (c.column k).deleteGate gate := by
  have hdelete : ∀ {column : Column n} {row : Nat}, (c.column k).delete row = .ok column →
      column = c.column k ∨ column = .blank ∨ ∃ gate, column = (c.column k).deleteGate gate :=
    fun h => (Column.delete_eq_ok h).imp_right .inr
  cases a with
  | reset => exact .inr (.inl (column_blank k))
  | edit col e =>
    cases e with
    | delete row =>
      rcases column_settle_edit c ⟨row, col⟩ (·.apply (.delete row)) k with
        hsame | ⟨-, told, hok⟩
      · exact .inl hsame
      · exact hdelete (Column.told_eq_ok hok)
    | _ => exact ha.elim
  | command request =>
    cases request with
    | delete cell =>
      rcases column_settle_edit c cell (·.apply (.delete cell.row)) k with
        hsame | ⟨-, told, hok⟩
      · exact .inl hsame
      · exact hdelete (Column.told_eq_ok hok)
    | toggleGate cell kind =>
      rcases column_settle_edit c cell
        (fun column => Editor.silently (column.toggleGate cell.row kind)) k with
        hsame | ⟨hk, told, hok⟩
      · exact .inl hsame
      · refine hdelete (Column.delete_of_toggleGate ?_ (silently_eq_ok hok))
        rw [hk]
        exact ha
    | _ => exact ha.elim

/-! ### Histories -/

theorem GateReachable.marked (h : c.GateReachable) (k : Nat) : (c.column k).Marked := by
  induction h with
  | blank => exact (column_blank k).symm ▸ Column.marked_blank
  | after _ a ha ih =>
    exact column_after_induction ih Column.marked_blank ih.step fun heq hplace =>
      ih.place (Action.isStructural_of_place ha heq) hplace

/-- A wire becomes stray only if two nodes lose their links over it. -/
theorem GateReachable.stray_after (h : c.GateReachable) {a : Action} (ha : a.storesMark = false)
    {cell : Cell} (hstray : (c.after a).Stray cell) :
    c.Stray cell ∨ c.Uncovers (c.after a) cell := by
  have hmarked := h.marked cell.col
  revert hstray
  show ((c.after a).column cell.col).Stray cell.row →
    c.Stray cell ∨ (c.column cell.col).Uncovers ((c.after a).column cell.col) cell.row
  refine column_after_induction (P := fun column => column.Stray cell.row →
    c.Stray cell ∨ (c.column cell.col).Uncovers column cell.row) .inl
    (fun hblank => absurd hblank (Column.not_stray_blank _)) hmarked.stray_step
    fun heq hplace hstray => ?_
  exact hmarked.stray_place (Action.isStructural_of_place ha heq) hplace hstray

/-- Taking gates away leaves no wire stray. -/
theorem GateReachable.stray_of_removes (h : c.GateReachable) {a : Action} (ha : a.Removes c)
    {cell : Cell} (hstray : (c.after a).Stray cell) : c.Stray cell := by
  rw [Stray] at hstray
  rcases column_after_of_removes ha cell.col with heq | heq | ⟨gate, heq⟩
  · rwa [heq] at hstray
  · rw [heq] at hstray
    exact absurd hstray (Column.not_stray_blank _)
  · rw [heq] at hstray
    exact (h.marked cell.col).stray_deleteGate hstray

theorem OneLossReachable.not_stray (h : c.OneLossReachable) (cell : Cell) : ¬ c.Stray cell := by
  induction h with
  | blank =>
    rw [Stray, column_blank]
    exact Column.not_stray_blank _
  | @after c hc a ha hloss ih =>
    intro hstray
    by_cases hremoves : a.Removes c
    · exact ih (hc.gateReachable.stray_of_removes hremoves hstray)
    · exact (hc.gateReachable.stray_after ha hstray).elim ih (hloss hremoves cell)

/-- What is left of the marks where gates are put on top of gates.  A control mark is a control of
another node.  An action makes a wire stray only if it takes no gate away and costs two nodes
their links over the wire; so in a history without such actions, every passing wire lies strictly
between a node and one of its links. -/
theorem strays_from_crossings (h : c.GateReachable) :
    (∀ row col, (c.node ⟨row, col⟩).kind = .control →
      ∃ gate, gate ≠ row ∧ row ∈ (c.node ⟨gate, col⟩).controls) ∧
    (∀ (a : Action) (cell : Cell), a.storesMark = false → (c.after a).Stray cell →
      c.Stray cell ∨ ¬ a.Removes c ∧ c.Uncovers (c.after a) cell) ∧
    (c.OneLossReachable → ∀ row col, (c.node ⟨row, col⟩).kind = .trace →
      ∃ gate, ∃ link ∈ (c.node ⟨gate, col⟩).links,
        gate < row ∧ row < link ∨ link < row ∧ row < gate) := by
  refine ⟨fun row col hk => ?_, fun a cell ha hstray => ?_, fun hloss row col hk => ?_⟩
  · have hmarked := h.marked col
    obtain ⟨gate, hmem⟩ := hmarked.owned ((Node.kind_eq_plain_iff rfl).1 hk)
    exact ⟨gate, (hmarked.ne_of_mem (Node.mem_links_of_mem_controls hmem)).symm, hmem⟩
  · by_cases hremoves : a.Removes c
    · exact .inl (h.stray_of_removes hremoves hstray)
    · exact (h.stray_after ha hstray).imp_right (⟨hremoves, ·⟩)
  · by_contra hno
    refine hloss.not_stray ⟨row, col⟩ ⟨(Node.kind_eq_plain_iff rfl).1 hk, ?_⟩
    rintro gate ⟨link, hl, hbetween⟩
    exact hno ⟨gate, link, hl, Column.isBetween_iff.1 hbetween⟩

/-- If all nodes with links stand in one row, then no action costs two nodes their links. -/
theorem not_uncovers {c' : Circuit n d} (gate : Nat)
    (h : ∀ col < d, ∀ row < n, (c.node ⟨row, col⟩).links ≠ [] → row = gate) (cell : Cell) :
    ¬ c.Uncovers c' cell := by
  have hgate : ∀ {row}, (c.column cell.col).Passes row cell.row → row = gate := by
    intro row hpass
    by_cases hcol : cell.col < d
    · exact h cell.col hcol row (Column.lt_of_links_ne_nil hpass.links_ne_nil) hpass.links_ne_nil
    · refine absurd ?_ hpass.links_ne_nil
      rw [column, dif_neg hcol, Column.node_blank, Node.links_blank]
  rintro ⟨row, other, hne, ⟨hpass, -⟩, hother, -⟩
  exact hne ((hgate hpass).trans (hgate hother).symm)

/-- Two controlled gates whose links pass the same wire: one in row 3, whose control has moved away
from it, and one in row 4. -/
def crossed : Circuit 5 1 :=
  ((blank.after (.edit 0 (.place 3 { Node.ofSymbol .x with control := some 2 }))).after
    (.edit 0 (.moveControl 3 .up))).after
    (.edit 0 (.place 4 { Node.ofSymbol .x with control := some 0 }))

/-- A new gate in row 4 with its control in row 3. -/
def onTop : Action := .edit 0 (.place 4 { Node.ofSymbol .x with control := some 3 })

theorem storesMark_onTop : onTop.storesMark = false := by decide +kernel

theorem oneLossReachable_crossed : crossed.OneLossReachable :=
  ((OneLossReachable.blank.after _ (by decide +kernel)
    fun _ => not_uncovers 3 (by decide +kernel)).after _ rfl
    fun _ => not_uncovers 3 (by decide +kernel)).after _ (by decide +kernel)
    fun _ => not_uncovers 3 (by decide +kernel)

theorem strays_from_crossings_crossed :
    (crossed.node ⟨0, 0⟩).kind = .control ∧
      (∃ gate, gate ≠ 0 ∧ 0 ∈ (crossed.node ⟨gate, 0⟩).controls) ∧
      (crossed.node ⟨2, 0⟩).kind = .trace ∧
      (∃ gate, ∃ link ∈ (crossed.node ⟨gate, 0⟩).links,
        gate < 2 ∧ 2 < link ∨ link < 2 ∧ 2 < gate) ∧
      (crossed.after onTop).Stray ⟨2, 0⟩ ∧
      (crossed.Stray ⟨2, 0⟩ ∨
        ¬ onTop.Removes crossed ∧ crossed.Uncovers (crossed.after onTop) ⟨2, 0⟩) :=
  have hcontrol : (crossed.node ⟨0, 0⟩).kind = .control := by decide +kernel
  have htrace : (crossed.node ⟨2, 0⟩).kind = .trace := by decide +kernel
  have hstray : (crossed.after onTop).Stray ⟨2, 0⟩ := by
    unfold Stray
    decide +kernel
  have h := strays_from_crossings oneLossReachable_crossed.gateReachable
  ⟨hcontrol, h.1 0 0 hcontrol, htrace, h.2.2 oneLossReachable_crossed 2 0 htrace, hstray,
    h.2.1 onTop ⟨2, 0⟩ storesMark_onTop hstray⟩

/-- A passing wire that no link passes, although nobody has stored a mark. -/
theorem stray_left :
    (crossed.after onTop).GateReachable ∧
      ((crossed.after onTop).node ⟨2, 0⟩).kind = .trace ∧
      ¬ ∃ gate, ∃ link ∈ ((crossed.after onTop).node ⟨gate, 0⟩).links,
        gate < 2 ∧ 2 < link ∨ link < 2 ∧ 2 < gate := by
  have hstray : (crossed.after onTop).Stray ⟨2, 0⟩ := by
    unfold Stray
    decide +kernel
  refine ⟨oneLossReachable_crossed.gateReachable.after onTop storesMark_onTop,
    (Node.kind_eq_plain_iff rfl).2 hstray.1, ?_⟩
  rintro ⟨gate, link, hl, hbetween⟩
  exact hstray.2 gate ⟨link, hl, Column.isBetween_iff.2 hbetween⟩

end Circuit

end QuantumCircuit

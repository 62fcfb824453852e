import QuantumCircuit.Column.Edit
import QuantumCircuit.Column.Gesture
import QuantumCircuit.Proofs.Column.Placement

/-!
# What an edit does to a column

Apart from deleting, every edit puts one gate back into its row: a new gate, or the old one
turned, with fewer links, or with one new link.  `Change` lists these cases together with what
each of them has checked, and the theorems `change_…` sort the successful edits of a column and
the successful gestures of a user under it.  `Step` adds deletion.  Invariants are proved case by
case over these and never look at the edits again.
-/

namespace QuantumCircuit

/-- The node `y` is the gate `x` after an edit: turned, or with links dropped, or with links to
the rows in `fresh`. -/
structure Node.Altered (x y : Node) (fresh : List Nat) : Prop where
  symbol_eq : y.symbol = x.symbol
  theta_eq : x.symbol.isRotatable = false → y.theta = x.theta
  further_eq : y.phi = x.phi ∧ y.lambda = x.lambda
  symbol_of_partner : y.partner.isSome = true → x.partner.isSome = true ∨ x.symbol = .swap
  mem_or_fresh : ∀ link ∈ y.links, link ∈ x.links ∨ link ∈ fresh
  mem_of_fresh : ∀ row ∈ fresh, row ∈ y.links
  /-- A node that is edited is a gate, or it has links as only gates have. -/
  isGate : x.symbol.isNull = false ∨ x.links ≠ []

theorem Node.isNull_of_isControlled {x : Node} (h : x.kind.isControlled = true) :
    x.symbol.isNull = false := by
  cases hs : x.symbol.isNull with
  | false => rfl
  | true =>
    rw [(kind_eq_plain_iff hs).2 rfl] at h
    exact absurd h (by simp [Kind.isControlled])

theorem Node.isNull_of_isRotatable {x : Node} (h : x.symbol.isRotatable = true) :
    x.symbol.isNull = false := by
  cases hs : x.symbol <;> simp_all [Symbol.isRotatable, Symbol.axis?, Symbol.isNull]

namespace Node

variable {x : Node} {row : Nat}

theorem altered_control (h : x.symbol.isNull = false ∨ x.links ≠ []) :
    x.Altered { x with control := some row } [row] := by
  refine ⟨rfl, fun _ => rfl, ⟨rfl, rfl⟩, .inl, fun l hl => ?_, fun l hl => ?_, h⟩
  · simp only [mem_links, mem_controls] at hl ⊢
    rcases hl with (hfirst | hsecond) | hpartner
    · cases hfirst
      exact .inr (List.mem_singleton_self _)
    · exact .inl (.inl (.inr hsecond))
    · exact .inl (.inr hpartner)
  · rw [List.mem_singleton.1 hl]
    exact mem_links.2 (.inl (mem_controls.2 (.inl rfl)))

theorem altered_secondControl (h : x.symbol.isNull = false) :
    x.Altered { x with secondControl := some row } [row] := by
  refine ⟨rfl, fun _ => rfl, ⟨rfl, rfl⟩, .inl, fun l hl => ?_, fun l hl => ?_, .inl h⟩
  · simp only [mem_links, mem_controls] at hl ⊢
    rcases hl with (hfirst | hsecond) | hpartner
    · exact .inl (.inl (.inl hfirst))
    · cases hsecond
      exact .inr (List.mem_singleton_self _)
    · exact .inl (.inr hpartner)
  · rw [List.mem_singleton.1 hl]
    exact mem_links.2 (.inl (mem_controls.2 (.inr rfl)))

theorem altered_partner (h : x.symbol = .swap) :
    x.Altered { x with partner := some row } [row] := by
  refine ⟨rfl, fun _ => rfl, ⟨rfl, rfl⟩, fun _ => .inr h, fun l hl => ?_, fun l hl => ?_,
    .inl (by rw [h]; rfl)⟩
  · simp only [mem_links] at hl ⊢
    rcases hl with hcontrol | hpartner
    · exact .inl (.inl hcontrol)
    · cases hpartner
      exact .inr (List.mem_singleton_self _)
  · rw [List.mem_singleton.1 hl]
    exact mem_links.2 (.inr rfl)

theorem altered_dropControls (h : x.controls ≠ []) :
    x.Altered { x with control := none, secondControl := none } [] := by
  have hlinks : x.links ≠ [] := fun hnil => h (controls_eq_nil_of_links hnil)
  refine ⟨rfl, fun _ => rfl, ⟨rfl, rfl⟩, .inl, fun l hl => ?_, by simp, .inr hlinks⟩
  simp only [mem_links, mem_controls] at hl ⊢
  rcases hl with (hfirst | hsecond) | hpartner
  · cases hfirst
  · cases hsecond
  · exact .inl (.inr hpartner)

theorem altered_dropPartner (h : x.partner.isSome = true) :
    x.Altered { x with partner := none } [] := by
  obtain ⟨p, hp⟩ := Option.isSome_iff_exists.1 h
  have hlinks : x.links ≠ [] := List.ne_nil_of_mem (mem_links.2 (.inr hp))
  refine ⟨rfl, fun _ => rfl, ⟨rfl, rfl⟩, by simp, fun l hl => ?_, by simp, .inr hlinks⟩
  simp only [mem_links] at hl ⊢
  rcases hl with hcontrol | hpartner
  · exact .inl (.inl hcontrol)
  · cases hpartner

theorem altered_theta (h : x.symbol.isRotatable = true) (theta : Binary64) :
    x.Altered { x with theta } [] := by
  refine ⟨rfl, fun hs => ?_, ⟨rfl, rfl⟩, .inl, fun l hl => .inl hl,
    fun _ hl => absurd hl List.not_mem_nil, .inl (isNull_of_isRotatable h)⟩
  rw [h] at hs
  cases hs

end Node

namespace Column

variable {n : Nat} {c c' : Column n}

/-- The column `c'` comes from `c` by a change of the gate in `row`. -/
inductive Change (c : Column n) (row : Nat) : Column n → Prop
  | keep : Change c row c
  /-- A new gate comes into a row that shows nothing. -/
  | put {g : NewGate} {x : Node} (hempty : c.reading row = .empty) (hnew : newNode g = .ok x)
      (hfits : c.Fits row x) : Change c row (c.overwrite row x)
  /-- The gate is turned or loses links. -/
  | revise {x : Node} (hx : (c.node row).Altered x []) (hfits : c.Fits row x) :
      Change c row (c.overwrite row x)
  /-- The gate is linked to a free row, which is then emptied. -/
  | link {x : Node} {new : Nat} (hx : (c.node row).Altered x [new])
      (hfree : c.isFree new = true) (hfits : c.Fits row x) :
      Change c row ((c.overwrite row x).clear new)
  /-- The gate is linked to a free row, and a row between them may become a passing wire. -/
  | stretch {x : Node} {new gap : Nat} (hx : (c.node row).Altered x [new])
      (hfree : c.isFree new = true) (hfits : c.Fits row x) (hgap : isBetween row new gap = true) :
      Change c row (((c.overwrite row x).clear new).fillGap gap)

/-! ### Successful runs -/

theorem bind_eq_ok {ε α β : Type} {step : Except ε α} {next : α → Except ε β} {b : β}
    (h : (step >>= next) = .ok b) : ∃ a, step = .ok a ∧ next a = .ok b := by
  cases step with
  | error e => cases h
  | ok a => exact ⟨a, rfl, h⟩

theorem map_eq_ok {ε α β : Type} {f : α → β} {e : Except ε α} {b : β} (h : e.map f = .ok b) :
    ∃ a, e = .ok a ∧ f a = b := by
  cases e with
  | error e => cases h
  | ok a => exact ⟨a, rfl, by simpa [Except.map] using h⟩

/-- A row that is told with a result does not change the result. -/
theorem told_eq_ok {ε α β : Type} {e : Except ε α} {a : α} {row told : β}
    (h : e.map (·, row) = .ok (a, told)) : e = .ok a := by
  obtain ⟨_, he, heq⟩ := map_eq_ok h
  cases heq
  exact he

theorem firstSuccess_eq_ok {α : Type} {attempt : Nat → Except (EditError Nat) α}
    {fault : EditError Nat} {rows : List Nat} {a : α}
    (h : firstSuccess attempt fault rows = .ok a) : ∃ row ∈ rows, attempt row = .ok a := by
  induction rows generalizing fault with
  | nil => cases h
  | cons row rest ih =>
    unfold firstSuccess at h
    split at h
    · rename_i b hb
      exact ⟨row, List.mem_cons_self, hb.trans h⟩
    · obtain ⟨r, hr, ha⟩ := ih h
      exact ⟨r, List.mem_cons_of_mem _ hr, ha⟩

theorem firstUnoccupied_eq_ok {α : Type} {attempt : Nat → Except (EditError Nat) α}
    {fault : EditError Nat} {rows : List Nat} {a : α}
    (h : firstUnoccupied attempt fault rows = .ok a) : ∃ row ∈ rows, attempt row = .ok a := by
  induction rows with
  | nil => cases h
  | cons row rest ih =>
    unfold firstUnoccupied at h
    split at h
    · rename_i b hb
      exact ⟨row, List.mem_cons_self, hb.trans h⟩
    · split at h
      · obtain ⟨r, hr, ha⟩ := ih h
        exact ⟨r, List.mem_cons_of_mem _ hr, ha⟩
      · cases h

/-! ### Edits -/

theorem change_placeNew {row : Nat} {g : NewGate} (h : c.placeNew row g = .ok c') :
    c.Change row c' := by
  obtain ⟨_, -, h⟩ := bind_eq_ok h
  split at h
  case isTrue hempty =>
    obtain ⟨x, hnew, h⟩ := bind_eq_ok h
    obtain ⟨hfits, rfl⟩ := place_eq_ok h
    exact .put (by simpa using hempty) hnew hfits
  case isFalse => cases h

theorem change_place {row : Nat} {x : Node} (hx : (c.node row).Altered x [])
    (h : c.place row x = .ok c') : c.Change row c' := by
  obtain ⟨hfits, rfl⟩ := place_eq_ok h
  exact .revise hx hfits

theorem relink_eq_ok {gate row : Nat} {x : Node} (h : c.relink gate row x = .ok c') :
    c.isFree row = true ∧ c.Fits gate x ∧ c' = (c.overwrite gate x).clear row := by
  unfold relink at h
  split at h
  · cases h
  · rename_i hrow
    obtain ⟨d, hd, rfl⟩ := map_eq_ok h
    obtain ⟨hfits, rfl⟩ := place_eq_ok hd
    exact ⟨by simp_all, hfits, rfl⟩

theorem change_relink {gate row : Nat} {x : Node} (hx : (c.node gate).Altered x [row])
    (h : c.relink gate row x = .ok c') : c.Change gate c' := by
  obtain ⟨hfree, hfits, rfl⟩ := relink_eq_ok h
  exact .link hx hfree hfits

theorem change_attachControl {gate row : Nat} (h : c.attachControl gate row = .ok c') :
    c.Change gate c' := by
  obtain ⟨_, -, h⟩ := bind_eq_ok h
  obtain ⟨_, -, h⟩ := bind_eq_ok h
  dsimp only at h
  split at h
  case isTrue hkind =>
    have hgate : (c.node gate).symbol.isNull = false :=
      Node.isNull_of_isControlled (x := { c.node gate with control := some row }) hkind
    exact change_relink (Node.altered_control (.inl hgate)) h
  case isFalse => cases h

theorem change_attachSecondControl {gate row : Nat}
    (h : c.attachSecondControl gate row = .ok c') : c.Change gate c' := by
  obtain ⟨_, -, h⟩ := bind_eq_ok h
  obtain ⟨_, -, h⟩ := bind_eq_ok h
  dsimp only at h
  split at h
  case isTrue hkind =>
    have hgate : (c.node gate).symbol.isNull = false :=
      Node.isNull_of_isControlled (x := { c.node gate with secondControl := some row })
        (by rw [beq_iff_eq.1 hkind]; rfl)
    exact change_relink (Node.altered_secondControl hgate) h
  case isFalse => cases h

theorem change_attachPartner {gate row : Nat} (h : c.attachPartner gate row = .ok c') :
    c.Change gate c' := by
  obtain ⟨_, -, h⟩ := bind_eq_ok h
  obtain ⟨_, -, h⟩ := bind_eq_ok h
  split at h
  case isTrue hswap => exact change_relink (Node.altered_partner (beq_iff_eq.1 hswap)) h
  case isFalse => cases h

theorem change_detachControls {gate : Nat} (h : c.detachControls gate = .ok c') :
    c.Change gate c' := by
  obtain ⟨_, -, h⟩ := bind_eq_ok h
  split at h
  · cases h
    exact .keep
  · rename_i hcontrols
    exact change_place (Node.altered_dropControls fun hnil => hcontrols (by rw [hnil]; rfl)) h

theorem isBetween_of_gap? {gate row gap : Nat} {d : Direction}
    (h : gap? gate row d = some gap) : isBetween gate row gap = true := by
  rw [isBetween_iff]
  cases d with
  | up =>
    obtain ⟨hgap, heq⟩ := Option.ite_none_right_eq_some.1 h
    simp only [Bool.and_eq_true, decide_eq_true_eq, bne_iff_ne] at hgap
    cases heq
    omega
  | down =>
    obtain ⟨hgap, heq⟩ := Option.ite_none_right_eq_some.1 h
    simp only [Bool.and_eq_true, decide_eq_true_eq, bne_iff_ne] at hgap
    cases heq
    omega
  | left => cases h
  | right => cases h

theorem change_moveControl {gate row : Nat} {d : Direction}
    (h : c.moveControl gate d = .ok (c', row)) : c.Change gate c' := by
  obtain ⟨_, -, h⟩ := bind_eq_ok h
  split at h
  case h_1 control hcontrol hsecond =>
    split at h
    case h_1 new hnew =>
      split at h
      case isTrue hfree =>
        obtain ⟨moved, hmoved, h⟩ := bind_eq_ok h
        obtain ⟨hfits, rfl⟩ := place_eq_ok hmoved
        have hlinks : (c.node gate).links ≠ [] :=
          List.ne_nil_of_mem (Node.mem_links.2 (.inl (Node.mem_controls.2 (.inl hcontrol))))
        have hx : (c.node gate).Altered { c.node gate with control := some new } [new] :=
          Node.altered_control (.inr hlinks)
        cases h
        cases hgap : gap? gate row d with
        | none => exact .link hx hfree hfits
        | some gap => exact .stretch hx hfree hfits (isBetween_of_gap? hgap)
      case isFalse => cases h
    case h_2 => cases h
  case h_2 => cases h

theorem change_rotate {row : Nat} {delta : Binary64} (h : c.rotate row delta = .ok c') :
    c.Change row c' := by
  obtain ⟨_, -, h⟩ := bind_eq_ok h
  dsimp only at h
  split at h
  case isTrue hkind =>
    have hrot : (c.node row).symbol.isRotatable = true := by
      have := (Bool.and_eq_true_iff.1 hkind).1
      rwa [Kind.isRotatable, Node.symbol_kind] at this
    exact change_place (Node.altered_theta hrot _) h
  case isFalse => cases h

/-! ### Gestures -/

theorem change_toggleGate {row : Nat} {kind : Kind} (h : c.toggleGate row kind = .ok c') :
    c.Change row c' ∨ c.delete row = .ok c' := by
  obtain ⟨_, -, h⟩ := bind_eq_ok h
  split at h
  · obtain ⟨g, -, h⟩ := bind_eq_ok h
    exact .inl (change_placeNew h)
  · split at h
    · exact .inr h
    · cases h

theorem change_toggleControl {row : Nat} (h : c.toggleControl row = .ok c') :
    c.Change row c' := by
  obtain ⟨_, -, h⟩ := bind_eq_ok h
  split at h
  · obtain ⟨_, -, h⟩ := firstSuccess_eq_ok h
    exact change_attachControl h
  · exact change_detachControls h

theorem change_addSecondControl {row : Nat} {r : Nat}
    (h : c.addSecondControl row = .ok (c', r)) : c.Change row c' := by
  obtain ⟨_, -, h⟩ := bind_eq_ok h
  obtain ⟨_, -, h⟩ := firstUnoccupied_eq_ok h
  obtain ⟨d, hd, heq⟩ := map_eq_ok h
  cases heq
  exact change_attachSecondControl hd

theorem change_toggleSwap {row : Nat} (h : c.toggleSwap row = .ok c') : c.Change row c' := by
  obtain ⟨_, -, h⟩ := bind_eq_ok h
  split at h
  · rename_i hpartner
    exact change_place (Node.altered_dropPartner hpartner) h
  · obtain ⟨_, -, h⟩ := firstUnoccupied_eq_ok h
    exact change_attachPartner h

/-! ### Steps -/

/-- The column `c'` comes from `c` by an edit: a change of one gate, or the deletion of one. -/
inductive Step (c : Column n) : Column n → Prop
  | change {row : Nat} {c' : Column n} (h : c.Change row c') : Step c c'
  | delete (gate : Nat) : Step c (c.deleteGate gate)

/-- What is deleted is a gate, or nothing. -/
theorem delete_eq_ok {row : Nat} (h : c.delete row = .ok c') :
    c' = c ∨ ∃ gate, c' = c.deleteGate gate := by
  obtain ⟨_, -, h⟩ := bind_eq_ok h
  dsimp only at h
  split at h
  · cases h
    exact .inl rfl
  · split at h
    · cases h
      exact .inr ⟨_, rfl⟩
    · cases h
  · cases h
  · split at h
    · cases h
    · cases h
      exact .inr ⟨row, rfl⟩

theorem step_delete {row : Nat} (h : c.delete row = .ok c') : c.Step c' := by
  rcases delete_eq_ok h with rfl | ⟨gate, rfl⟩
  · exact .change (Change.keep : Change _ row _)
  · exact .delete gate

/-- Toggling a gate that is there deletes it. -/
theorem delete_of_toggleGate {row : Nat} {kind : Kind} (hne : c.reading row ≠ .empty)
    (h : c.toggleGate row kind = .ok c') : c.delete row = .ok c' := by
  obtain ⟨_, -, h⟩ := bind_eq_ok h
  rw [if_neg (by simpa using hne)] at h
  split at h
  · exact h
  · cases h

/-- Nothing is deleted from a row that shows nothing. -/
theorem eq_of_delete {row : Nat} (hempty : c.reading row = .empty) (h : c.delete row = .ok c') :
    c' = c := by
  obtain ⟨_, -, h⟩ := bind_eq_ok h
  rw [hempty] at h
  cases h
  rfl

theorem step_toggleGate {row : Nat} {kind : Kind} (h : c.toggleGate row kind = .ok c') :
    c.Step c' :=
  (change_toggleGate h).elim .change step_delete

/-- An edit of a column is a step, unless it stores a node of the caller's making. -/
theorem step_apply {e : ColumnEdit} {told : Option Nat} (h : c.apply e = .ok (c', told)) :
    c.Step c' ∨ ∃ row x, e = .place row x ∧ c.place row x = .ok c' := by
  cases e with
  | place row x => exact .inr ⟨row, x, rfl, told_eq_ok h⟩
  | attachControl gate row => exact .inl (.change (change_attachControl (told_eq_ok h)))
  | attachSecondControl gate row =>
    exact .inl (.change (change_attachSecondControl (told_eq_ok h)))
  | detachControls gate => exact .inl (.change (change_detachControls (told_eq_ok h)))
  | moveControl gate d =>
    obtain ⟨⟨d, r⟩, hd, heq⟩ := map_eq_ok h
    cases heq
    exact .inl (.change (change_moveControl hd))
  | attachPartner gate row => exact .inl (.change (change_attachPartner (told_eq_ok h)))
  | delete row => exact .inl (step_delete (told_eq_ok h))
  | rotate row delta => exact .inl (.change (change_rotate (told_eq_ok h)))

end Column

end QuantumCircuit

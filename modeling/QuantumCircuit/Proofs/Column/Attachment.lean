import QuantumCircuit.Proofs.Column.Obstructed
import QuantumCircuit.Proofs.Consistency
import QuantumCircuit.Proofs.SoundNodes

/-!
# Linking a gate to a row

A gate has three links, its first control, its second control and its partner, and a new link is
made in the same way for each of them: the gate is put back with the link, and the linked row is
emptied.  So all that is said here is said once, of any `Link`.

* `Tidy.attach_eq_ok_iff` : in a tidy column a link can be made exactly if the gate takes it and the
  row is another one that is free.  Nothing that a placement asks for can fail then
  (`Attachable.fits`).
* `Attachable.attached` : what the rows of the column show afterwards (`Attached`).

The links of all other nodes stay, since only marks and blanks are written into their rows
(`Admits.row?_rewritten`).
-/

namespace QuantumCircuit

/-- One of the links that a gate can have. -/
inductive Link
  | control
  | secondControl
  | partner
  deriving DecidableEq

namespace Link

/-- The row that a gate is linked to. -/
def row? (x : Node) : Link → Option Nat
  | control => x.control
  | secondControl => x.secondControl
  | partner => x.partner

/-- The gate with the link changed. -/
def set (x : Node) (row : Option Nat) : Link → Node
  | control => { x with control := row }
  | secondControl => { x with secondControl := row }
  | partner => { x with partner := row }

/-- What a row shows that a gate is linked to. -/
def reading : Link → Kind
  | control | secondControl => .control
  | partner => .swap

/-- The gate takes a link to the row: it is of a controlled kind with the first control, doubly
controlled with the second, or a swap. -/
def Allows (x : Node) (row : Nat) : Link → Prop
  | control => (control.set x (some row)).kind.isControlled = true
  | secondControl => (secondControl.set x (some row)).kind = .toffoli
  | partner => x.symbol = .swap

/-- The edit that links a gate to a row. -/
def edit (gate row : Nat) : Link → ColumnEdit
  | control => .attachControl gate row
  | secondControl => .attachSecondControl gate row
  | partner => .attachPartner gate row

variable {x : Node} {l : Link} {q : Nat}

instance (x : Node) (row : Nat) (l : Link) : Decidable (l.Allows x row) :=
  match l with
  | control => inferInstanceAs (Decidable ((control.set x (some row)).kind.isControlled = true))
  | secondControl => inferInstanceAs (Decidable ((secondControl.set x (some row)).kind = .toffoli))
  | partner => inferInstanceAs (Decidable (x.symbol = .swap))

theorem mem_controls_iff : q ∈ x.controls ↔ ∃ l, l ≠ partner ∧ row? x l = some q := by
  rw [Node.mem_controls]
  constructor
  · rintro (h | h)
    · exact ⟨control, by simp, h⟩
    · exact ⟨secondControl, by simp, h⟩
  · rintro ⟨l, hne, h⟩
    cases l with
    | control => exact .inl h
    | secondControl => exact .inr h
    | partner => exact absurd rfl hne

theorem mem_links_iff : q ∈ x.links ↔ ∃ l, row? x l = some q := by
  rw [Node.mem_links, mem_controls_iff]
  constructor
  · rintro (⟨l, -, h⟩ | h)
    · exact ⟨l, h⟩
    · exact ⟨partner, h⟩
  · rintro ⟨l, h⟩
    by_cases hl : l = partner
    · rw [hl] at h
      exact .inr h
    · exact .inl ⟨l, hl, h⟩

theorem mem_links (h : l.row? x = some q) : q ∈ x.links := mem_links_iff.2 ⟨l, h⟩

theorem row?_of_links_nil (h : x.links = []) (l : Link) : l.row? x = none :=
  Option.eq_none_iff_forall_ne_some.2 fun q hq => by
    have hmem := mem_links hq
    rw [h] at hmem
    cases hmem

/-- No two links of a gate go to one row. -/
theorem nodup_links_iff :
    x.links.Nodup ↔ ∀ l l' q, row? x l = some q → row? x l' = some q → l = l' := by
  constructor
  · intro h l l' q hl hl'
    cases l <;> cases l' <;> simp only [row?] at hl hl' <;>
      first | rfl | simp [Node.links, Node.controls, List.nodup_append, hl, hl'] at h
  · intro h
    have hcontrols := h control secondControl
    have hfirst := h control partner
    have hsecond := h secondControl partner
    simp only [row?, reduceCtorEq, imp_false] at hcontrols hfirst hsecond
    cases ha : x.control <;> cases hb : x.secondControl <;> cases hp : x.partner <;>
      simp_all [Node.links, Node.controls, eq_comm]

@[simp]
theorem row?_set (x : Node) (row : Option Nat) (l l' : Link) :
    l'.row? (l.set x row) = if l' = l then row else l'.row? x := by
  cases l <;> cases l' <;> rfl

@[simp] theorem symbol_set (x : Node) (row : Option Nat) : (l.set x row).symbol = x.symbol := by
  cases l <;> rfl

@[simp] theorem row_set (x : Node) (row : Option Nat) : (l.set x row).row = x.row := by
  cases l <;> rfl

/-- Only gates take links. -/
theorem Allows.isNull (h : l.Allows x q) : x.symbol.isNull = false := by
  cases l with
  | control => simpa using Node.isNull_of_isControlled h
  | secondControl =>
    have hkind : (secondControl.set x (some q)).kind.isControlled = true := by
      rw [show (secondControl.set x (some q)).kind = .toffoli from h]
      rfl
    simpa using Node.isNull_of_isControlled hkind
  | partner =>
    rw [show x.symbol = .swap from h]
    rfl

theorem Allows.altered (h : l.Allows x q) : x.Altered (l.set x (some q)) [q] := by
  have hgate := h.isNull
  cases l with
  | control => exact Node.altered_control (.inl hgate)
  | secondControl => exact Node.altered_secondControl hgate
  | partner => exact Node.altered_partner h

/-- The controls of a gate act on it also after a link that it takes. -/
theorem Allows.controlsAct (h : l.Allows x q) (hact : x.controlsAct = true) :
    (l.set x (some q)).controlsAct = true := by
  cases l with
  | control =>
    refine Node.controlsAct_iff.2 ⟨fun _ => h, fun hsecond => ?_⟩
    have hfirst := (Node.tells_kind hact).control_of_second hsecond
    have hkind := (Node.controlsAct_iff.1 hact).2 hsecond
    rw [Node.kind, hfirst] at hkind
    exact hkind
  | secondControl =>
    have hkind : (secondControl.set x (some q)).kind = .toffoli := h
    exact Node.controlsAct_iff.2 ⟨fun _ => by rw [hkind]; rfl, fun _ => hkind⟩
  | partner => exact hact

end Link

namespace Column

variable {n : Nat} {c c' : Column n}

/-! ### What a row shows in a tidy column -/

theorem Tidy.marked (h : c.Tidy) : c.Marked where
  toLinked := h.toLinked
  bare r hr := h.links_of_isNull (by
    cases hs : (c.node r).symbol <;> rw [hs] at hr <;> first | rfl | cases hr)
  owned := h.owned

/-- A linked row shows what it is linked as. -/
theorem Tidy.reading_of_row? (h : c.Tidy) {gate r : Nat} {l : Link}
    (hl : l.row? (c.node gate) = some r) : c.reading r = l.reading := by
  cases l with
  | control => exact h.reading_of_mem_controls (Node.mem_controls.2 (.inl hl))
  | secondControl => exact h.reading_of_mem_controls (Node.mem_controls.2 (.inr hl))
  | partner =>
    have hcovers : ¬ (c.node r).Covers :=
      Node.not_covers_iff.2 (h.symbol_of_mem (Link.mem_links hl))
    exact h.marked.reading_eq_swap hl hcovers

/-- Any other row shows its own kind. -/
theorem reading_of_unlinked {r : Nat} (h : ∀ gate, r ∉ (c.node gate).links) :
    c.reading r = (c.node r).kind := by
  by_cases hk : (c.node r).kind = .empty
  · rw [hk]
    exact reading_eq_empty_iff.2 ⟨(Node.kind_eq_plain_iff rfl).1 hk, fun gate _ => h gate⟩
  · rw [reading, if_pos (bne_iff_ne.2 hk)]

/-- Two columns show the same in a row if the same links go to it, and if without any the node is
the same. -/
theorem Tidy.reading_eq_of_row?_iff (h : c.Tidy) (h' : c'.Tidy) {r : Nat}
    (hlinks : ∀ other (l : Link), l.row? (c'.node other) = some r ↔ l.row? (c.node other) = some r)
    (hnode : (∀ other, r ∉ (c.node other).links) → c'.node r = c.node r) :
    c'.reading r = c.reading r := by
  by_cases hlinked : ∃ other, r ∈ (c.node other).links
  · obtain ⟨other, hmem⟩ := hlinked
    obtain ⟨l, hl⟩ := Link.mem_links_iff.1 hmem
    rw [h'.reading_of_row? ((hlinks other l).2 hl), h.reading_of_row? hl]
  · have hno := not_exists.1 hlinked
    have hno' : ∀ other, r ∉ (c'.node other).links := fun other hmem => by
      obtain ⟨l, hl⟩ := Link.mem_links_iff.1 hmem
      exact hno other (Link.mem_links ((hlinks other l).1 hl))
    rw [reading_of_unlinked hno', reading_of_unlinked hno, hnode hno]

/-- No node is linked to a free row. -/
theorem Tidy.not_mem_of_isFree (h : c.Tidy) {row : Nat} (hfree : c.isFree row = true) (r : Nat) :
    row ∉ (c.node r).links := by
  intro hmem
  rcases isFree_iff.1 hfree with hempty | hs
  · exact h.not_mem_of_reading hempty r hmem
  · rcases h.symbol_of_mem hmem with hs' | hs' <;> rw [hs] at hs' <;> cases hs'

/-! ### When a link can be made -/

/-- The edit that links a gate to a row. -/
def attach (c : Column n) (l : Link) (gate row : Nat) : Except (EditError Nat) (Column n) :=
  match l with
  | .control => c.attachControl gate row
  | .secondControl => c.attachSecondControl gate row
  | .partner => c.attachPartner gate row

theorem apply_edit (c : Column n) (l : Link) (gate row : Nat) :
    c.apply (l.edit gate row) = (c.attach l gate row).map (·, some row) := by
  cases l <;> rfl

theorem attach_eq_ok_iff_relink {l : Link} {gate row : Nat} :
    c.attach l gate row = .ok c' ↔ gate < n ∧ row < n ∧ l.Allows (c.node gate) row ∧
      c.relink gate row (l.set (c.node gate) (some row)) = .ok c' := by
  have hchecked : ∀ {p : Prop} [Decidable p] {e : EditError Nat}
      {m : Except (EditError Nat) (Column n)},
      (do c.checkRow gate; c.checkRow row; if p then m else .error e) = .ok c' ↔
        gate < n ∧ row < n ∧ p ∧ m = .ok c' := by
    intro p _ e m
    by_cases hgate : gate < n <;> by_cases hrow : row < n <;> by_cases hp : p <;>
      simp [checkRow, hgate, hrow, hp, bind, Except.bind]
  cases l with
  | control => exact hchecked
  | secondControl => exact hchecked.trans (by rw [beq_iff_eq]; rfl)
  | partner => exact hchecked.trans (by rw [beq_iff_eq]; rfl)

theorem attach_eq_relink {l : Link} {gate row : Nat} (hgate : gate < n) (hrow : row < n)
    (hallows : l.Allows (c.node gate) row) :
    c.attach l gate row = c.relink gate row (l.set (c.node gate) (some row)) := by
  cases l with
  | control =>
    rw [attach, attachControl, checkRow, checkRow, if_pos hgate, if_pos hrow]
    exact if_pos hallows
  | secondControl =>
    rw [attach, attachSecondControl, checkRow, checkRow, if_pos hgate, if_pos hrow]
    exact if_pos (beq_iff_eq.2 hallows)
  | partner =>
    rw [attach, attachPartner, checkRow, checkRow, if_pos hgate, if_pos hrow]
    exact if_pos (beq_iff_eq.2 hallows)

/-- The gate in a row can be linked to another row: it takes the link, and the row is free. -/
structure Attachable (c : Column n) (l : Link) (gate row : Nat) : Prop where
  gate_lt : gate < n
  row_lt : row < n
  allows : l.Allows (c.node gate) row
  ne : row ≠ gate
  isFree : c.isFree row = true

/-- The column with a new link from the gate in a row to another row. -/
def withLink (c : Column n) (l : Link) (gate row : Nat) : Column n :=
  c.rewritten gate (l.set (c.node gate) (some row)) [row]

section

variable {l : Link} {gate row : Nat}

/-- A placement of the gate with the link asks for nothing more. -/
theorem Attachable.fits (ha : c.Attachable l gate row) (h : c.Tidy) :
    c.Fits gate (l.set (c.node gate) (some row)) := by
  have hunlinked := h.not_mem_of_isFree ha.isFree
  have hmem : ∀ {link}, link ∈ (l.set (c.node gate) (some row)).links →
      link ∈ (c.node gate).links ∨ link = row := fun hl =>
    (ha.allows.altered.mem_or_fresh _ hl).imp_right List.mem_singleton.1
  refine ⟨ha.gate_lt, ha.allows.controlsAct (h.controlsAct gate), ?_, fun link hl => ?_,
    fun link hl => ?_, fun link hl other hother => ?_⟩
  · -- The row is none of the old links, which are different from one another.
    have hnew : ∀ {m : Link}, m.row? (c.node gate) ≠ some row := fun hm =>
      hunlinked gate (Link.mem_links hm)
    refine Link.nodup_links_iff.2 fun m m' q hm hm' => ?_
    rw [Link.row?_set] at hm hm'
    split_ifs at hm hm' with heq heq' heq'
    · rw [heq, heq']
    · cases hm
      exact absurd hm' hnew
    · cases hm'
      exact absurd hm hnew
    · exact Link.nodup_links_iff.1 (h.nodup_links gate) m m' q hm hm'
  · rcases hmem hl with hold | rfl
    · exact h.lt_of_mem hold
    · exact ha.row_lt
  · rcases hmem hl with hold | rfl
    · exact h.ne_of_mem hold
    · exact ha.ne
  · rcases hmem hl with hold | rfl
    · exact .inr (.inr (h.owner_eq hother hold))
    · exact absurd hother (hunlinked other)

theorem Attachable.admits (ha : c.Attachable l gate row) (h : c.Tidy) :
    c.Admits gate (l.set (c.node gate) (some row)) [row] :=
  h.admits_altered ha.allows.altered (ha.fits h) (by simpa using ha.isFree)

/-- In a tidy column a link can be made exactly if the gate takes it and the row is another one that
is free. -/
theorem Tidy.attach_eq_ok_iff (h : c.Tidy) :
    c.attach l gate row = .ok c' ↔ c.Attachable l gate row ∧ c' = c.withLink l gate row := by
  rw [attach_eq_ok_iff_relink]
  constructor
  · rintro ⟨hgate, hrow, hallows, hrelink⟩
    obtain ⟨hfree, hfits, rfl⟩ := relink_eq_ok hrelink
    have hne := hfits.ne_of_mem row (hallows.altered.mem_of_fresh row List.mem_cons_self)
    have ha : c.Attachable l gate row := ⟨hgate, hrow, hallows, hne, hfree⟩
    exact ⟨ha, h.link_eq (ha.admits h)⟩
  · rintro ⟨ha, rfl⟩
    have hplace : c.place gate (l.set (c.node gate) (some row)) = .ok _ :=
      place_eq_ok_iff.2 ⟨placeFault?_eq_none_iff.2 (ha.fits h), rfl⟩
    refine ⟨ha.gate_lt, ha.row_lt, ha.allows, ?_⟩
    rw [relink, if_neg (by simp [ha.ne, ha.isFree]), hplace]
    exact congrArg Except.ok (h.link_eq (ha.admits h))

/-- A gate is linked to any other row that it takes, unless that is occupied. -/
theorem Tidy.attach_eq (h : c.Tidy) (hgate : gate < n) (hrow : row < n)
    (hallows : l.Allows (c.node gate) row) (hne : row ≠ gate) :
    c.attach l gate row =
      if c.isFree row then .ok (c.withLink l gate row) else .error (c.occupied row) := by
  split_ifs with hfree
  · exact h.attach_eq_ok_iff.2 ⟨⟨hgate, hrow, hallows, hne, hfree⟩, rfl⟩
  · rw [attach_eq_relink hgate hrow hallows, relink, if_pos (by simp [hfree])]

/-! ### What a new link changes -/

/-- A node that is stored leaves the links of all other nodes alone. -/
theorem Admits.row?_rewritten {x : Node} {fresh : List Nat} (hx : c.Admits row x fresh)
    (h : c.Tidy) {other : Nat} (hne : other ≠ row) (l : Link) :
    l.row? ((c.rewritten row x fresh).node other) = l.row? (c.node other) := by
  by_cases hlinks : (c.node other).links = []
  · have hlinks' : ((c.rewritten row x fresh).node other).links = [] := by
      refine List.eq_nil_iff_forall_not_mem.2 fun q hq => ?_
      have hmem := Admits.mem_of_mem_rewritten hne hq
      rw [hlinks] at hmem
      cases hmem
    rw [Link.row?_of_links_nil hlinks, Link.row?_of_links_nil hlinks']
  · rw [hx.node_of_links h hne hlinks]

theorem Tidy.symbol_of_mem_withLink (h : c.Tidy) {link : Nat} (hl : link ∈ (c.node gate).links) :
    ((c.withLink l gate row).node link).symbol = .empty ∨
      ((c.withLink l gate row).node link).symbol = .control := by
  rw [withLink, node_rewritten _ _ _ _ (h.lt_of_mem hl)]
  split_ifs with _ _ hgate
  · exact .inl rfl
  · exact .inr rfl
  · exact absurd hgate (h.ne_of_mem hl)
  · exact .inl rfl
  · exact h.symbol_of_mem hl

namespace Attachable

theorem tidy (ha : c.Attachable l gate row) (h : c.Tidy) : (c.withLink l gate row).Tidy := by
  rw [withLink, ← h.link_eq (ha.admits h)]
  exact h.link (ha.admits h) (ha.fits h)

theorem node_gate (ha : c.Attachable l gate row) (h : c.Tidy) :
    (c.withLink l gate row).node gate = l.set (c.node gate) (some row) := by
  rw [withLink, (ha.admits h).node_row, Node.atRow_self (by rw [Link.row_set, h.row_node])]

theorem node_row (ha : c.Attachable l gate row) :
    (c.withLink l gate row).node row = .blank row := by
  rw [withLink, node_rewritten _ _ _ _ ha.row_lt, if_pos List.mem_cons_self]

/-- Apart from the row and the one that was linked before, the links to a row stay. -/
theorem row?_iff (ha : c.Attachable l gate row) (h : c.Tidy) {q : Nat} (hq : q ≠ row)
    (hold : l.row? (c.node gate) ≠ some q) (other : Nat) (m : Link) :
    m.row? ((c.withLink l gate row).node other) = some q ↔ m.row? (c.node other) = some q := by
  by_cases hother : other = gate
  · rw [hother, ha.node_gate h, Link.row?_set]
    split_ifs with hm
    · rw [hm]
      exact iff_of_false (fun heq => hq (Option.some.inj heq).symm) hold
    · rfl
  · rw [withLink, (ha.admits h).row?_rewritten h hother m]

/-- No link of the new column goes to a row without links but the linked one. -/
theorem unlinked (ha : c.Attachable l gate row) (h : c.Tidy) {r : Nat} (hrow : r ≠ row)
    (hno : ∀ other, r ∉ (c.node other).links) (other : Nat) :
    r ∉ ((c.withLink l gate row).node other).links := by
  intro hmem
  obtain ⟨m, hm⟩ := Link.mem_links_iff.1 hmem
  have hold : l.row? (c.node gate) ≠ some r := fun heq => hno gate (Link.mem_links heq)
  exact hno other (Link.mem_links ((ha.row?_iff h hrow hold other m).1 hm))

/-- No node is linked to the row any more that was linked before. -/
theorem unlinked_old (ha : c.Attachable l gate row) (h : c.Tidy) {old : Nat}
    (hold : l.row? (c.node gate) = some old) (other : Nat) :
    old ∉ ((c.withLink l gate row).node other).links := by
  intro hmem
  have hlink := Link.mem_links hold
  by_cases hother : other = gate
  · rw [hother, ha.node_gate h] at hmem
    obtain ⟨m, hm⟩ := Link.mem_links_iff.1 hmem
    rw [Link.row?_set] at hm
    split_ifs at hm with heq
    · cases hm
      exact h.not_mem_of_isFree ha.isFree gate hlink
    · exact heq (Link.nodup_links_iff.1 (h.nodup_links gate) m l old hm hold)
  · exact hother (h.owner_eq (Admits.mem_of_mem_rewritten hother hmem) hlink)

end Attachable

/-- The row holds what it held, and if that is a passing wire, a link passes it; or it held a
passing wire that no link passes any more. -/
def KeptButWire (c c' : Column n) (r : Nat) : Prop :=
  c'.node r = c.node r ∧ ((c.node r).symbol = .trace → ∃ other, c'.Passes other r) ∨
    c'.node r = .blank r ∧ (c.node r).symbol = .trace ∧ ∀ other, ¬ c'.Passes other r

/-- The column `c'` is `c` after the gate in a row has been linked to another row. -/
structure Attached (c : Column n) (l : Link) (gate row : Nat) (c' : Column n) : Prop where
  node_gate : c'.node gate = l.set (c.node gate) (some row)
  node_row : c'.node row = .blank row
  reading_row : c'.reading row = l.reading
  /-- The row that the link went to before is free. -/
  reading_old : ∀ old, l.row? (c.node gate) = some old → c'.reading old = .empty
  /-- A passing wire that no link passes any more is free. -/
  reading_wire : ∀ r, r ≠ gate → r ≠ row → l.row? (c.node gate) ≠ some r →
    c.reading r = .trace → (∀ other, ¬ c'.Passes other r) → c'.reading r = .empty
  /-- All other rows show what they showed. -/
  reading_other : ∀ r, r ≠ gate → r ≠ row → l.row? (c.node gate) ≠ some r →
    (c.reading r = .trace → ∃ other, c'.Passes other r) → c'.reading r = c.reading r

namespace Attachable

/-- Only a passing wire that no link passes any more is lost beside the controls of the gate. -/
theorem node_other (ha : c.Attachable l gate row) (h : c.Tidy) {r : Nat} (hr : r ≠ gate)
    (hrow : r ≠ row) (hold : r ∉ (c.node gate).controls)
    (hnew : r ∉ (l.set (c.node gate) (some row)).controls) :
    c.KeptButWire (c.withLink l gate row) r := by
  by_cases hlt : r < n
  · have hnode : (c.withLink l gate row).node r =
        if c.isStale gate (l.set (c.node gate) (some row)).links r then .blank r
        else c.node r := by
      rw [withLink, node_rewritten _ _ _ _ hlt, if_neg (by simpa using hrow), if_neg hnew,
        if_neg hr]
    by_cases hstale : c.isStale gate (l.set (c.node gate) (some row)).links r = true
    · rw [if_pos hstale] at hnode
      obtain ⟨-, hs, hkeep, hspan⟩ := (isStale_iff.1 hstale).resolve_left fun hmark => hold hmark.1
      refine .inr ⟨hnode, hs, ?_⟩
      rintro other ⟨link, hl, hbetween⟩
      by_cases hother : other = gate
      · rw [hother, ha.node_gate h] at hl
        exact hkeep link hl (hother ▸ hbetween)
      · have hspan' : c.isSpanned gate r = true :=
          isSpanned_iff.2 ⟨other, hother, link, Admits.mem_of_mem_rewritten hother hl, hbetween⟩
        rw [hspan] at hspan'
        cases hspan'
    · rw [if_neg hstale] at hnode
      exact .inl ⟨hnode, fun hs => (ha.tidy h).spanned (by rwa [hnode])⟩
  · have hblank := c.node_of_le (Nat.not_lt.1 hlt)
    refine .inl ⟨by rw [hblank, node_of_le _ (Nat.not_lt.1 hlt)], fun hs => ?_⟩
    rw [hblank] at hs
    cases hs

theorem node_of_unlinked (ha : c.Attachable l gate row) (h : c.Tidy) {r : Nat} (hr : r ≠ gate)
    (hrow : r ≠ row) (hno : ∀ other, r ∉ (c.node other).links) :
    c.KeptButWire (c.withLink l gate row) r := by
  refine ha.node_other h hr hrow (fun hmem => hno gate (Node.mem_links_of_mem_controls hmem)) ?_
  intro hmem
  rw [← ha.node_gate h] at hmem
  exact ha.unlinked h hrow hno gate (Node.mem_links_of_mem_controls hmem)

/-- What the rows show when the link has been made.  A row that is linked to shows what it is linked
as, before and afterwards; any other shows the kind of its node, and of these only wires are lost
that no link passes any more. -/
theorem attached (ha : c.Attachable l gate row) (h : c.Tidy) :
    c.Attached l gate row (c.withLink l gate row) := by
  have htidy := ha.tidy h
  refine ⟨ha.node_gate h, ha.node_row, ?_, fun old hold => ?_,
    fun r hr hrow hold hwire hpass => ?_, fun r hr hrow hold hpass => ?_⟩
  · have hlink : l.row? ((c.withLink l gate row).node gate) = some row := by
      rw [ha.node_gate h, Link.row?_set, if_pos rfl]
    exact htidy.reading_of_row? hlink
  · refine htidy.reading_eq_empty ?_ (ha.unlinked_old h hold)
    exact h.symbol_of_mem_withLink (Link.mem_links hold)
  · have hs := reading_eq_trace_iff.1 hwire
    have hno : ∀ other, r ∉ (c.node other).links :=
      h.not_mem_of_isFree (isFree_iff.2 (.inr hs))
    rcases ha.node_of_unlinked h hr hrow hno with ⟨-, hpass'⟩ | ⟨hblank, -⟩
    · obtain ⟨other, hother⟩ := hpass' hs
      exact absurd hother (hpass other)
    · exact htidy.reading_eq_empty (by rw [hblank]; exact .inl rfl) (ha.unlinked h hrow hno)
  · refine h.reading_eq_of_row?_iff htidy (ha.row?_iff h hrow hold) fun hno => ?_
    rcases ha.node_of_unlinked h hr hrow hno with ⟨heq, -⟩ | ⟨-, hs, hpass'⟩
    · exact heq
    · obtain ⟨other, hother⟩ := hpass (reading_eq_trace_iff.2 hs)
      exact absurd hother (hpass' other)

/-- The other rows that show a control input go on showing it. -/
theorem reading_control (ha : c.Attachable l gate row) (h : c.Tidy) {r : Nat}
    (hr : c.reading r = .control) (hold : l.row? (c.node gate) ≠ some r) :
    (c.withLink l gate row).reading r = .control := by
  have hgate : r ≠ gate := by
    rintro rfl
    have hnull := ha.allows.isNull
    rcases reading_eq_control_iff.1 hr with hs | ⟨hs, -⟩ <;> rw [hs] at hnull <;> cases hnull
  have hrow : r ≠ row := by
    rintro rfl
    rcases isFree_iff_reading.1 ha.isFree with hs | hs <;> rw [hs] at hr <;> cases hr
  have hwire : c.reading r ≠ .trace := by rw [hr]; decide
  rw [(ha.attached h).reading_other r hgate hrow hold fun htrace => absurd htrace hwire, hr]

end Attachable

end

end Column

end QuantumCircuit

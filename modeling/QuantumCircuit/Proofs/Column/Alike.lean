import QuantumCircuit.Proofs.Column.Tidy

/-!
# Columns that differ in control marks

A control input is read off its gate.  Some edits leave a control mark in the row of the input as
well, and others empty that row, so what the row holds depends on the history of the column.
Columns that differ in nothing else are `Alike`.

A scan of the column never tells the mark of a control from an empty row that is a control: the
readings, the links and the faults of alike columns are the same.  Hence an edit succeeds in both
or in neither (`Agree`), and as everything it writes depends on these only, it leaves columns that
are alike again (`Alike.apply`, `Alike.toggleGate`, …).
-/

namespace QuantumCircuit

/-- The fault without the kinds that it names: what is wrong, and where. -/
def EditError.withoutKind {α : Type} : EditError α → EditError α
  | .occupied p _ => .occupied p .empty
  | .notRemovable p _ => .notRemovable p .empty
  | .unrotatable _ => .unrotatable .empty
  | .uncontrollable _ => .uncontrollable .empty
  | .unswappable _ => .unswappable .empty
  | .unplaceable _ => .unplaceable .empty
  | e => e

theorem EditError.isOccupied_withoutKind {α : Type} (e : EditError α) :
    e.withoutKind.isOccupied = e.isOccupied := by
  cases e <;> rfl

theorem EditError.withoutKind_map {α β : Type} (f : α → β) (e : EditError α) :
    (e.map f).withoutKind = e.withoutKind.map f := by
  cases e <;> rfl

/-! ### Results that agree -/

/-- Two edits agree: both succeed, with related results, or both are refused, for the same fault
apart from the kinds that it names. -/
inductive Agree {Place α β : Type} (R : α → β → Prop) :
    Except (EditError Place) α → Except (EditError Place) β → Prop
  | ok {a : α} {b : β} (h : R a b) : Agree R (.ok a) (.ok b)
  | error {e e' : EditError Place} (h : e.withoutKind = e'.withoutKind) :
      Agree R (.error e) (.error e')

namespace Agree

variable {Place α β γ δ : Type} {R : α → β → Prop} {S : γ → δ → Prop}
  {m : Except (EditError Place) α} {m' : Except (EditError Place) β}

theorem bind (h : Agree R m m') {k : α → Except (EditError Place) γ}
    {k' : β → Except (EditError Place) δ} (hk : ∀ a b, R a b → Agree S (k a) (k' b)) :
    Agree S (m >>= k) (m' >>= k') := by
  cases h with
  | ok h => exact hk _ _ h
  | error h => exact .error h

/-- The same step first. -/
theorem same_bind {s : Except (EditError Place) γ} {k : γ → Except (EditError Place) α}
    {k' : γ → Except (EditError Place) β} (hk : ∀ a, s = .ok a → Agree R (k a) (k' a)) :
    Agree R (s >>= k) (s >>= k') := by
  cases s with
  | ok a => exact hk a rfl
  | error e => exact .error rfl

theorem mono (h : Agree R m m') {R' : α → β → Prop} (hR : ∀ a b, R a b → R' a b) :
    Agree R' m m' := by
  cases h with
  | ok h => exact .ok (hR _ _ h)
  | error h => exact .error h

theorem map (h : Agree R m m') {f : α → γ} {g : β → δ} (hfg : ∀ a b, R a b → S (f a) (g b)) :
    Agree S (m.map f) (m'.map g) := by
  cases h with
  | ok h => exact .ok (hfg _ _ h)
  | error h => exact .error h

end Agree

namespace Column

variable {n : Nat} {c e : Column n}

/-- The columns hold the same nodes, except that in the row of a control input one of them may
hold the control mark and the other nothing. -/
def Alike (c e : Column n) : Prop :=
  ∀ r, c.node r = e.node r ∨ (∃ gate, r ∈ (c.node gate).controls) ∧
    (c.node r = .controlMark r ∧ e.node r = .blank r ∨
      c.node r = .blank r ∧ e.node r = .controlMark r)

theorem alike_iff : c.Alike e ↔ ∀ r < n, c.node r = e.node r ∨
    (∃ gate < n, r ∈ (c.node gate).controls) ∧
      (c.node r = .controlMark r ∧ e.node r = .blank r ∨
        c.node r = .blank r ∧ e.node r = .controlMark r) := by
  constructor
  · intro h r _
    refine (h r).imp_right fun ⟨⟨gate, hmem⟩, hmark⟩ => ⟨⟨gate, ?_, hmem⟩, hmark⟩
    exact lt_of_mem_links (Node.mem_links_of_mem_controls hmem)
  · intro h r
    by_cases hr : r < n
    · exact (h r hr).imp_right fun ⟨⟨gate, _, hmem⟩, hmark⟩ => ⟨⟨gate, hmem⟩, hmark⟩
    · exact .inl (by rw [node_of_le _ (Nat.not_lt.1 hr), node_of_le _ (Nat.not_lt.1 hr)])

instance : Decidable (c.Alike e) := decidable_of_iff' _ alike_iff

/-- What the node in a row has marked is empty after its release. -/
theorem node_of_released {row r : Nat} {keep : List Nat} (hmem : r ∈ (c.node row).controls)
    (hnode : c.node r = .controlMark r ∨ c.node r = .blank r) :
    (if c.isStale row keep r = true then Node.blank r else c.node r) = .blank r := by
  rcases hnode with hnode | hnode
  · exact if_pos (isStale_iff.2 (.inl ⟨hmem, by rw [hnode]; rfl⟩))
  · rw [hnode, ite_self]

/-- Only control marks of the node and passing wires are released. -/
theorem isStale_of_not_mem {row r : Nat} {keep : List Nat} (hmem : r ∉ (c.node row).controls)
    (hs : (c.node r).symbol ≠ .trace) : c.isStale row keep r = false := by
  rw [← Bool.not_eq_true]
  intro hstale
  rcases isStale_iff.1 hstale with ⟨hmem', -⟩ | ⟨-, hs', -⟩
  · exact hmem hmem'
  · exact hs hs'

namespace Alike

theorem refl (c : Column n) : c.Alike c := fun _ => .inl rfl

/-! ### What cannot be told apart -/

/-- Whatever is the same of a control mark and of a blank cell is the same in alike columns. -/
theorem same {α : Type} (h : c.Alike e) (f : Node → α)
    (hf : ∀ r, f (.controlMark r) = f (.blank r)) (r : Nat) : f (c.node r) = f (e.node r) := by
  rcases h r with heq | ⟨-, ⟨hc, he⟩ | ⟨hc, he⟩⟩
  · rw [heq]
  · rw [hc, he, hf]
  · rw [hc, he, hf]

theorem controls_eq (h : c.Alike e) (r : Nat) : (c.node r).controls = (e.node r).controls :=
  h.same Node.controls (fun _ => rfl) r

theorem links_eq (h : c.Alike e) (r : Nat) : (c.node r).links = (e.node r).links :=
  h.same Node.links (fun _ => rfl) r

theorem partner_eq (h : c.Alike e) (r : Nat) : (c.node r).partner = (e.node r).partner :=
  h.same Node.partner (fun _ => rfl) r

theorem symm (h : c.Alike e) : e.Alike c := by
  intro r
  rcases h r with heq | ⟨⟨gate, hmem⟩, hmark⟩
  · exact .inl heq.symm
  · rw [h.controls_eq] at hmem
    exact .inr ⟨⟨gate, hmem⟩, hmark.symm.imp And.symm And.symm⟩

/-- The rows either hold the same node, or no gate and no links. -/
theorem node_eq_or (h : c.Alike e) (r : Nat) :
    c.node r = e.node r ∨ ((c.node r).symbol.isNull = true ∧ (c.node r).links = []) ∧
      (e.node r).symbol.isNull = true ∧ (e.node r).links = [] := by
  rcases h r with heq | ⟨-, ⟨hc, he⟩ | ⟨hc, he⟩⟩
  · exact .inl heq
  · rw [hc, he]
    exact .inr ⟨⟨rfl, rfl⟩, rfl, rfl⟩
  · rw [hc, he]
    exact .inr ⟨⟨rfl, rfl⟩, rfl, rfl⟩

theorem controller?_eq (h : c.Alike e) (row : Nat) : c.controller? row = e.controller? row := by
  simp only [controller?, rows, h.controls_eq]

theorem isPartner_eq (h : c.Alike e) (row : Nat) : c.isPartner row = e.isPartner row := by
  simp only [isPartner, rows, h.partner_eq]

theorem isLinked_eq (h : c.Alike e) (except : List Nat) (row : Nat) :
    c.isLinked except row = e.isLinked except row := by
  simp only [isLinked, rows, h.links_eq]

theorem isSpanned_eq (h : c.Alike e) (except row : Nat) :
    c.isSpanned except row = e.isSpanned except row := by
  simp only [isSpanned, rows, h.links_eq]

/-- A row in which the columns differ shows a control input in both. -/
theorem reading_of_ne (h : c.Alike e) {row : Nat} (hne : c.node row ≠ e.node row) :
    c.reading row = .control := by
  obtain ⟨⟨gate, hmem⟩, hmark⟩ := (h row).resolve_left hne
  rcases hmark with ⟨hc, -⟩ | ⟨hc, -⟩
  · exact reading_eq_control_iff.2 (.inl (by rw [hc]; rfl))
  · -- The empty row is no gate, so it is another row that has it as a control.
    have hgate : gate ≠ row := by
      rintro rfl
      rw [hc] at hmem
      cases hmem
    exact reading_eq_control_iff.2
      (.inr ⟨by rw [hc]; rfl, isSome_controller?_iff.2 ⟨gate, hgate, hmem⟩⟩)

theorem reading_eq (h : c.Alike e) (row : Nat) : c.reading row = e.reading row := by
  by_cases heq : c.node row = e.node row
  · simp only [reading, heq, h.controller?_eq, h.isPartner_eq]
  · rw [h.reading_of_ne heq, h.symm.reading_of_ne (Ne.symm heq)]

theorem isFree_eq (h : c.Alike e) (row : Nat) : c.isFree row = e.isFree row := by
  simp only [isFree, h.reading_eq]

theorem occupied_eq (h : c.Alike e) (row : Nat) : c.occupied row = e.occupied row := by
  simp only [occupied, h.reading_eq]

theorem linkFault?_eq (h : c.Alike e) (taken links : List Nat) :
    c.linkFault? taken links = e.linkFault? taken links := by
  induction links generalizing taken with
  | nil => rfl
  | cons link rest ih => simp only [linkFault?, h.occupied_eq, ih]

/-- A node fits into both columns or, for the same reason, into neither. -/
theorem placeFault?_eq (h : c.Alike e) (row : Nat) (x : Node) :
    c.placeFault? row x = e.placeFault? row x := by
  have hlinked : c.isLinked (x.controls ++ [row]) = e.isLinked (x.controls ++ [row]) :=
    funext (h.isLinked_eq _)
  have hoccupied : c.occupied = e.occupied := funext h.occupied_eq
  simp only [placeFault?, h.linkFault?_eq, hlinked, hoccupied]

/-! ### What is written -/

/-- A mark is stale in both columns, unless it is there in one of them only. -/
theorem isStale_eq (h : c.Alike e) {r : Nat} (hr : c.node r = e.node r) (row : Nat)
    (keep : List Nat) : c.isStale row keep r = e.isStale row keep r := by
  simp only [isStale, h.controls_eq, h.links_eq, hr, h.isSpanned_eq]

/-- Columns that are alike stay so when a node is stored in both, as long as nothing with links is
written over. -/
theorem rewritten (h : c.Alike e) (hc : c.Tidy) {row : Nat} {x : Node} {fresh : List Nat}
    (hcontrols : ∀ r ∈ x.controls, (c.node r).links = [])
    (hfresh : ∀ r ∈ fresh, (c.node r).links = []) :
    (c.rewritten row x fresh).Alike (e.rewritten row x fresh) := by
  intro r
  by_cases hle : n ≤ r
  · exact .inl (by rw [node_of_le _ hle, node_of_le _ hle])
  have hr : r < n := Nat.lt_of_not_le hle
  rw [node_rewritten _ _ _ _ hr, node_rewritten _ _ _ _ hr]
  by_cases hrf : r ∈ fresh
  · exact .inl (by rw [if_pos hrf, if_pos hrf])
  by_cases hrx : r ∈ x.controls
  · exact .inl (by rw [if_neg hrf, if_neg hrf, if_pos hrx, if_pos hrx])
  by_cases hrow : r = row
  · exact .inl (by rw [if_neg hrf, if_neg hrf, if_neg hrx, if_neg hrx, if_pos hrow, if_pos hrow])
  simp only [hrf, hrx, hrow, if_false]
  rcases h r with heq | ⟨⟨gate, hmem⟩, hmark⟩
  · rw [h.isStale_eq heq, heq]
    exact .inl rfl
  by_cases hgate : gate = row
  · -- The mark belongs to the node that is replaced, and goes with it.
    rw [hgate] at hmem
    have hmem' : r ∈ (e.node row).controls := h.controls_eq row ▸ hmem
    left
    rw [node_of_released hmem (hmark.imp And.left And.left),
      node_of_released hmem' (hmark.symm.imp And.right And.right)]
  · -- The mark belongs to a node that stays, so it stays where it is, and so does its absence.
    have hlink := Node.mem_links_of_mem_controls hmem
    have hnot : r ∉ (c.node row).controls := fun hmem' =>
      hgate (hc.owner_eq hlink (Node.mem_links_of_mem_controls hmem'))
    have hnot' : r ∉ (e.node row).controls := h.controls_eq row ▸ hnot
    have hsymbol : (c.node r).symbol ≠ .trace ∧ (e.node r).symbol ≠ .trace := by
      rcases hmark with ⟨hc, he⟩ | ⟨hc, he⟩ <;> rw [hc, he] <;> simp
    rw [isStale_of_not_mem hnot hsymbol.1, isStale_of_not_mem hnot' hsymbol.2]
    have howner : (c.rewritten row x fresh).node gate = c.node gate :=
      hc.node_rewritten_of_links hcontrols hfresh hgate (List.ne_nil_of_mem hlink)
    exact .inr ⟨⟨gate, by rwa [howner]⟩, by simpa using hmark⟩

/-- Storing one node in both columns. -/
theorem overwrite (h : c.Alike e) (hc : c.Tidy) {row : Nat} {x : Node}
    (hcontrols : ∀ r ∈ x.controls, (c.node r).links = []) :
    (c.overwrite row x).Alike (e.overwrite row x) := by
  have hcontrols' : ∀ r ∈ x.controls, (e.node r).links = [] := fun r hr => by
    rw [← h.links_eq, hcontrols r hr]
  rw [overwrite_eq_rewritten hcontrols, overwrite_eq_rewritten hcontrols']
  exact h.rewritten hc hcontrols (by simp)

theorem clear (h : c.Alike e) (hc : c.Tidy) (row : Nat) : (c.clear row).Alike (e.clear row) :=
  h.overwrite hc (by simp)

theorem fillGap (h : c.Alike e) (hc : c.Tidy) (row : Nat) :
    (c.fillGap row).Alike (e.fillGap row) := by
  unfold Column.fillGap
  rw [h.reading_eq]
  split
  · exact h.overwrite hc (by simp)
  · exact h

/-- Storing a node with a link to a new row, and emptying that row. -/
theorem link (h : c.Alike e) (hc : c.Tidy) {row new : Nat} {x : Node}
    (hx : c.Admits row x [new]) :
    ((c.overwrite row x).clear new).Alike ((e.overwrite row x).clear new) := by
  have hcontrols : ∀ r ∈ x.controls, (c.node r).links = [] := fun r hr =>
    hx.links_of_mem_controls hc hr
  have hcontrols' : ∀ r ∈ x.controls, (e.node r).links = [] := fun r hr => by
    rw [← h.links_eq, hcontrols r hr]
  have hnew := hx.links_of_fresh new (List.mem_singleton_self new)
  have hne := hx.ne_of_fresh new (List.mem_singleton_self new)
  rw [clear_overwrite_eq_rewritten hcontrols hnew hne,
    clear_overwrite_eq_rewritten hcontrols' (by rw [← h.links_eq, hnew]) hne]
  exact h.rewritten hc hcontrols hx.links_of_fresh

theorem foldl_clear (h : c.Alike e) (hc : c.Tidy) (rows : List Nat) :
    (rows.foldl Column.clear c).Alike (rows.foldl Column.clear e) := by
  induction rows generalizing c e with
  | nil => exact h
  | cons row rest ih => exact ih (h.clear hc row) (hc.clear row)

theorem deleteGate (h : c.Alike e) (hc : c.Tidy) (row : Nat) :
    (c.deleteGate row).Alike (e.deleteGate row) := by
  have hfar : farEnd (c.node row) row = farEnd (e.node row) row :=
    h.same (farEnd · row) (fun _ => rfl) row
  unfold Column.deleteGate
  rw [hfar]
  exact h.foldl_clear hc _

/-! ### Edits -/

/-- The same node is put into both columns, or into neither. -/
theorem place (h : c.Alike e) (row : Nat) (x : Node) :
    Agree (fun c' e' => c.Fits row x ∧ c' = c.overwrite row x ∧ e' = e.overwrite row x)
      (c.place row x) (e.place row x) := by
  unfold Column.place
  rw [← h.placeFault?_eq]
  cases hfault : c.placeFault? row x with
  | some fault => exact .error rfl
  | none => exact .ok ⟨placeFault?_eq_none_iff.1 hfault, rfl, rfl⟩

theorem place_altered (h : c.Alike e) (hc : c.Tidy) {row : Nat} {x : Node}
    (hx : (c.node row).Altered x []) : Agree Alike (c.place row x) (e.place row x) := by
  refine (h.place row x).mono ?_
  rintro _ _ ⟨hfits, rfl, rfl⟩
  exact h.overwrite hc fun r hr =>
    (hc.admits_altered hx hfits (by simp)).links_of_mem_controls hc hr

theorem relink (h : c.Alike e) (hc : c.Tidy) {gate row : Nat} {x : Node}
    (hx : (c.node gate).Altered x [row]) :
    Agree Alike (c.relink gate row x) (e.relink gate row x) := by
  unfold Column.relink
  rw [← h.isFree_eq, ← h.occupied_eq]
  split
  · exact .error rfl
  · rename_i hfree
    have hfree : ∀ r ∈ [row], c.isFree r = true := by simp_all
    refine (h.place gate x).map ?_
    rintro _ _ ⟨hfits, rfl, rfl⟩
    exact h.link hc (hc.admits_altered hx hfits hfree)

/-- A new link: whether the gate takes it hangs on the node in its row only, and a row without a
gate takes none. -/
theorem attach (h : c.Alike e) (hc : c.Tidy) {gate row : Nat} (linked : Node → Node)
    (allowed : Node → Bool) (fault : Node → EditError Nat)
    (haltered : allowed (c.node gate) = true →
      (c.node gate).Altered (linked (c.node gate)) [row])
    (hnull : ∀ x : Node, x.symbol.isNull = true → allowed x = false)
    (hfault : ∀ x y, (fault x).withoutKind = (fault y).withoutKind) :
    Agree Alike
      (do
        c.checkRow gate
        c.checkRow row
        if allowed (c.node gate) then c.relink gate row (linked (c.node gate))
        else .error (fault (c.node gate)))
      (do
        e.checkRow gate
        e.checkRow row
        if allowed (e.node gate) then e.relink gate row (linked (e.node gate))
        else .error (fault (e.node gate))) := by
  refine .same_bind fun _ _ => .same_bind fun _ _ => ?_
  rcases h.node_eq_or gate with heq | ⟨⟨hc', -⟩, he, -⟩
  · rw [← heq]
    split
    · rename_i hallowed
      exact h.relink hc (haltered hallowed)
    · exact .error rfl
  · rw [hnull _ hc', hnull _ he]
    exact .error (hfault _ _)

theorem attachControl (h : c.Alike e) (hc : c.Tidy) (gate row : Nat) :
    Agree Alike (c.attachControl gate row) (e.attachControl gate row) := by
  refine h.attach hc (fun x => { x with control := some row })
    (fun x => ({ x with control := some row } : Node).kind.isControlled)
    (fun x => .uncontrollable x.kind) (fun hk => ?_) (fun x hx => ?_) fun _ _ => rfl
  · exact Node.altered_control (.inl (Node.isNull_of_isControlled
      (x := { c.node gate with control := some row }) hk))
  · rw [← Bool.not_eq_true]
    intro hk
    have := Node.isNull_of_isControlled (x := { x with control := some row }) hk
    rw [hx] at this
    cases this

theorem attachSecondControl (h : c.Alike e) (hc : c.Tidy) (gate row : Nat) :
    Agree Alike (c.attachSecondControl gate row) (e.attachSecondControl gate row) := by
  have hgate : ∀ x : Node, (({ x with secondControl := some row } : Node).kind == .toffoli) = true →
      x.symbol.isNull = false := fun x hk =>
    Node.isNull_of_isControlled (x := { x with secondControl := some row })
      (by rw [beq_iff_eq.1 hk]; rfl)
  refine h.attach hc (fun x => { x with secondControl := some row })
    (fun x => ({ x with secondControl := some row } : Node).kind == .toffoli)
    (fun x => .uncontrollable x.kind)
    (fun hk => Node.altered_secondControl (hgate _ hk)) (fun x hx => ?_) fun _ _ => rfl
  rw [← Bool.not_eq_true]
  intro hk
  have := hgate x hk
  rw [hx] at this
  cases this

theorem attachPartner (h : c.Alike e) (hc : c.Tidy) (gate row : Nat) :
    Agree Alike (c.attachPartner gate row) (e.attachPartner gate row) := by
  refine h.attach hc (fun x => { x with partner := some row }) (fun x => x.symbol == .swap)
    (fun x => .unswappable x.kind) (fun hk => Node.altered_partner (beq_iff_eq.1 hk))
    (fun x hx => ?_) fun _ _ => rfl
  cases hs : x.symbol <;> simp_all [Symbol.isNull]

theorem detachControls (h : c.Alike e) (hc : c.Tidy) (gate : Nat) :
    Agree Alike (c.detachControls gate) (e.detachControls gate) := by
  refine .same_bind fun _ _ => ?_
  rw [← h.controls_eq]
  split
  · exact .ok h
  · rename_i hcontrols
    have hne : (c.node gate).controls ≠ [] := fun hnil => hcontrols (by rw [hnil]; rfl)
    rcases h.node_eq_or gate with heq | ⟨⟨-, hlinks⟩, -⟩
    · rw [← heq]
      exact h.place_altered hc (Node.altered_dropControls hne)
    · exact absurd (Node.controls_eq_nil_of_links hlinks) hne

theorem moveControl (h : c.Alike e) (hc : c.Tidy) (gate : Nat) (d : Direction) :
    Agree (fun p q => p.1.Alike q.1 ∧ p.2 = q.2) (c.moveControl gate d) (e.moveControl gate d) := by
  refine .same_bind fun _ _ => ?_
  rw [← h.same Node.control (fun _ => rfl), ← h.same Node.secondControl (fun _ => rfl)]
  cases hcontrol : (c.node gate).control with
  | none => exact .error rfl
  | some control =>
    cases hsecond : (c.node gate).secondControl with
    | some second => exact .error rfl
    | none =>
      have hlinks : (c.node gate).links ≠ [] :=
        List.ne_nil_of_mem (Node.mem_links.2 (.inl (Node.mem_controls.2 (.inl hcontrol))))
      have heq : c.node gate = e.node gate := by
        rcases h.node_eq_or gate with heq | ⟨⟨-, hnil⟩, -⟩
        · exact heq
        · exact absurd hnil hlinks
      dsimp only
      cases hstep : controlStep? n gate control d with
      | none => exact .error rfl
      | some row =>
        dsimp only
        rw [← h.isFree_eq]
        split
        · rename_i hfree
          have hx : (c.node gate).Altered { c.node gate with control := some row } [row] :=
            Node.altered_control (.inr hlinks)
          rw [← heq]
          refine (h.place gate { c.node gate with control := some row }).bind ?_
          rintro _ _ ⟨hfits, rfl, rfl⟩
          have hadmits := hc.admits_altered hx hfits (by simpa using hfree)
          have hmoved := h.link hc hadmits
          cases hgap : gap? gate row d with
          | none => exact .ok ⟨hmoved, rfl⟩
          | some gap => exact .ok ⟨hmoved.fillGap (hc.link hadmits hfits) gap, rfl⟩
        · exact .error rfl

theorem delete (h : c.Alike e) (hc : c.Tidy) (row : Nat) :
    Agree Alike (c.delete row) (e.delete row) := by
  refine .same_bind fun _ _ => ?_
  rw [← h.reading_eq, ← h.controller?_eq]
  dsimp only
  -- What becomes of a row that shows a gate, whichever gate it is: the columns agree in it, for
  -- where they differ the row shows a control input.
  have hrest : c.reading row ≠ .control →
      Agree Alike
        (if c.reading row == .swap && (c.node row).kind == .empty then
          .error (.notRemovable row (c.reading row))
        else .ok (c.deleteGate row))
        (if c.reading row == .swap && (e.node row).kind == .empty then
          .error (.notRemovable row (c.reading row))
        else .ok (e.deleteGate row)) := by
    intro hreading
    have heq : c.node row = e.node row := by
      by_contra hne
      exact hreading (h.reading_of_ne hne)
    rw [← heq]
    split
    · exact .error rfl
    · exact .ok (h.deleteGate hc row)
  generalize c.reading row = kind at hrest ⊢
  cases kind with
  | plain s =>
    cases s with
    | empty => exact .ok h
    | control =>
      cases c.controller? row with
      | none => exact .error rfl
      | some gate => exact .ok (h.deleteGate hc gate)
    | trace => exact .error rfl
    | _ => exact hrest (by decide)
  | _ => exact hrest nofun

theorem rotate (h : c.Alike e) (hc : c.Tidy) (row : Nat) (delta : Binary64) :
    Agree Alike (c.rotate row delta) (e.rotate row delta) := by
  refine .same_bind fun _ _ => ?_
  dsimp only
  rw [← h.reading_eq]
  rcases h.node_eq_or row with heq | ⟨⟨hnull, -⟩, hnull', -⟩
  · rw [← heq]
    split
    · rename_i hkind
      have hrot : (c.node row).symbol.isRotatable = true := by
        have := (Bool.and_eq_true_iff.1 hkind).1
        rwa [Kind.isRotatable, Node.symbol_kind] at this
      exact h.place_altered hc (Node.altered_theta hrot _)
    · exact .error rfl
  · -- Without a gate there is nothing to turn.
    have hfixed : ∀ x : Node, x.symbol.isNull = true → x.kind.isRotatable = false := by
      intro x hx
      rw [Kind.isRotatable, Node.symbol_kind, ← Bool.not_eq_true]
      intro hrot
      rw [Node.isNull_of_isRotatable hrot] at hx
      cases hx
    rw [hfixed _ hnull, hfixed _ hnull']
    exact .error rfl

/-- Two columns that are alike take every edit alike, unless it stores a node of the caller's
making. -/
theorem apply (h : c.Alike e) (hc : c.Tidy) {edit : ColumnEdit}
    (hedit : ∀ row x, edit ≠ .place row x) :
    Agree (fun p q => p.1.Alike q.1 ∧ p.2 = q.2) (c.apply edit) (e.apply edit) := by
  cases edit with
  | place row x => exact absurd rfl (hedit row x)
  | attachControl gate row => exact (h.attachControl hc gate row).map fun _ _ hab => ⟨hab, rfl⟩
  | attachSecondControl gate row =>
    exact (h.attachSecondControl hc gate row).map fun _ _ hab => ⟨hab, rfl⟩
  | detachControls gate => exact (h.detachControls hc gate).map fun _ _ hab => ⟨hab, rfl⟩
  | moveControl gate d =>
    exact (h.moveControl hc gate d).map fun _ _ hab => ⟨hab.1, congrArg some hab.2⟩
  | attachPartner gate row => exact (h.attachPartner hc gate row).map fun _ _ hab => ⟨hab, rfl⟩
  | delete row => exact (h.delete hc row).map fun _ _ hab => ⟨hab, rfl⟩
  | rotate row delta => exact (h.rotate hc row delta).map fun _ _ hab => ⟨hab, rfl⟩

/-! ### Gestures -/

theorem placeNew (h : c.Alike e) (hc : c.Tidy) (row : Nat) (g : NewGate) :
    Agree Alike (c.placeNew row g) (e.placeNew row g) := by
  refine .same_bind fun _ _ => ?_
  rw [← h.reading_eq, ← h.occupied_eq]
  split
  · refine .same_bind fun x hx => (h.place row x).mono ?_
    rintro _ _ ⟨-, rfl, rfl⟩
    have hcontrols := Node.controls_eq_nil_of_links (newNode_eq_ok hx).2.1
    exact h.overwrite hc (by simp [hcontrols])
  · exact .error rfl

/-- A control mark is no gate to toggle. -/
theorem toggleGate (h : c.Alike e) (hc : c.Tidy) (row : Nat) {kind : Kind}
    (hkind : kind.symbol ≠ .control) :
    Agree Alike (c.toggleGate row kind) (e.toggleGate row kind) := by
  refine .same_bind fun _ _ => ?_
  rw [← h.reading_eq, ← h.occupied_eq]
  split
  · exact .same_bind fun g _ => h.placeNew hc row g
  · have hsame : ((c.node row).kind != .empty && (c.node row).symbol == kind.symbol) =
        ((e.node row).kind != .empty && (e.node row).symbol == kind.symbol) := by
      refine h.same (fun x => x.kind != .empty && x.symbol == kind.symbol) (fun r => ?_) row
      have hmark : ((Node.controlMark r).symbol == kind.symbol) = false := by
        simpa using Ne.symm hkind
      have hblank : (Node.blank r).kind = .empty := (Node.kind_eq_plain_iff rfl).2 rfl
      simp only [hmark, hblank, Bool.and_false, bne_self_eq_false, Bool.false_and]
    rw [hsame]
    split
    · exact h.delete hc row
    · exact .error rfl

theorem rotateTo (h : c.Alike e) (hc : c.Tidy) (row : Nat) (theta : Binary64) :
    Agree Alike (c.rotateTo row theta) (e.rotateTo row theta) := by
  unfold Column.rotateTo
  rw [← h.same Node.theta (fun _ => rfl)]
  exact h.rotate hc row _

end Alike

/-! ### Looking for a row -/

section

variable {α β : Type} {R : α → β → Prop} {attempt : Nat → Except (EditError Nat) α}
  {attempt' : Nat → Except (EditError Nat) β}

theorem agree_firstSuccess (h : ∀ row, Agree R (attempt row) (attempt' row))
    {fault fault' : EditError Nat} (hfault : fault.withoutKind = fault'.withoutKind)
    (rows : List Nat) :
    Agree R (firstSuccess attempt fault rows) (firstSuccess attempt' fault' rows) := by
  induction rows generalizing fault fault' with
  | nil => exact .error hfault
  | cons row rest ih =>
    have hrow := h row
    unfold firstSuccess
    generalize attempt row = r, attempt' row = r' at hrow ⊢
    cases hrow with
    | ok hab => exact .ok hab
    | error he => exact ih he

/-- Whether the search goes on hangs on what is wrong with a row, not on the kind in it. -/
theorem agree_firstUnoccupied (h : ∀ row, Agree R (attempt row) (attempt' row))
    (fault : EditError Nat) (rows : List Nat) :
    Agree R (firstUnoccupied attempt fault rows) (firstUnoccupied attempt' fault rows) := by
  induction rows with
  | nil => exact .error rfl
  | cons row rest ih =>
    have hrow := h row
    unfold firstUnoccupied
    generalize attempt row = r, attempt' row = r' at hrow ⊢
    cases hrow with
    | ok hab => exact .ok hab
    | @error fault fault' he =>
      have hoccupied : fault.isOccupied = fault'.isOccupied := by
        rw [← fault.isOccupied_withoutKind, he, fault'.isOccupied_withoutKind]
      dsimp only
      rw [hoccupied]
      split
      · exact ih
      · exact .error he

end

namespace Alike

theorem toggleControl (h : c.Alike e) (hc : c.Tidy) (row : Nat) :
    Agree Alike (c.toggleControl row) (e.toggleControl row) := by
  refine .same_bind fun _ _ => ?_
  rw [← h.controls_eq]
  split
  · exact agree_firstSuccess (h.attachControl hc row) rfl _
  · exact h.detachControls hc row

theorem addSecondControl (h : c.Alike e) (hc : c.Tidy) (row : Nat) :
    Agree (fun p q => p.1.Alike q.1 ∧ p.2 = q.2) (c.addSecondControl row)
      (e.addSecondControl row) := by
  refine .same_bind fun _ _ => ?_
  refine agree_firstUnoccupied (fun r => ?_) _ _
  exact (h.attachSecondControl hc row r).map fun _ _ hab => ⟨hab, rfl⟩

theorem toggleSwap (h : c.Alike e) (hc : c.Tidy) (row : Nat) :
    Agree Alike (c.toggleSwap row) (e.toggleSwap row) := by
  refine .same_bind fun _ _ => ?_
  rw [← h.partner_eq]
  split
  · rename_i hpartner
    rcases h.node_eq_or row with heq | ⟨⟨-, hlinks⟩, -⟩
    · rw [← heq]
      exact h.place_altered hc (Node.altered_dropPartner hpartner)
    · -- A swap with a partner has a link.
      obtain ⟨p, hp⟩ := Option.isSome_iff_exists.1 hpartner
      have hmem : p ∈ (c.node row).links := Node.mem_links.2 (.inr hp)
      rw [hlinks] at hmem
      cases hmem
  · exact agree_firstUnoccupied (h.attachPartner hc row) _ _

end Alike

end Column

end QuantumCircuit

import QuantumCircuit.Proofs.History

/-!
# Sound nodes

The nodes of a circuit in which anybody may store nodes of their own making.

The kind of a node is read off its symbol, its angle and its controls.  `Draft` is a node under
construction that carries its kind with it instead, and `Draft.Step` are the changes by which it
is made; after a change of the angle or of a control the kind is brought up to date
(`Draft.updated`).  Both say the same (`Draft.kind_build`).

* `nodes_sound` : every node of a circuit knows its row, its links are different other rows of the
  column, no two nodes of a column are linked to one row, and its kind says which controls it has,
  in whatever way the node has been made.
-/

namespace QuantumCircuit

namespace Kind

/-- The kind tells which controls there are: one control is that of a controlled kind, two are
those of the doubly controlled X, and a second control never stands alone. -/
structure Tells (k : Kind) (x : Node) : Prop where
  controlled_iff : (∃ t, k = controlled t) ↔ x.control.isSome = true ∧ x.secondControl = none
  toffoli_iff : k = toffoli ↔ x.control.isSome = true ∧ x.secondControl.isSome = true
  uncontrolled : x.controls = [] → k.isControlled = false
  control_of_second : x.secondControl.isSome = true → x.control.isSome = true

/-- A kind with a second control but without a first is not controlled. -/
theorem isControlled_of_no_control (s : Symbol) (r e : Bool) :
    (of s r false e).isControlled = false := by
  cases s <;> cases r <;> cases e <;> rfl

theorem of_ne_toffoli (s : Symbol) (r c : Bool) : of s r c false ≠ toffoli := by
  cases s <;> cases r <;> cases c <;> decide

theorem exists_controlled_of {k : Kind} (h : k.isControlled = true) (hk : k ≠ toffoli) :
    ∃ t, k = controlled t := by
  cases k with
  | controlled t => exact ⟨t, rfl⟩
  | toffoli => exact absurd rfl hk
  | plain s => cases h
  | rotated a => cases h

end Kind

theorem Node.controlsAct_iff {x : Node} :
    x.controlsAct = true ↔ (x.controls ≠ [] → x.kind.isControlled = true) ∧
      (x.secondControl.isSome = true → x.kind = .toffoli) := by
  simp only [controlsAct, Bool.and_eq_true, Bool.or_eq_true, List.isEmpty_iff,
    Option.isNone_iff_eq_none, beq_iff_eq, or_iff_not_imp_left, ne_eq, Option.isSome_iff_ne_none]

/-- The controls of a node act on it exactly as its kind says. -/
theorem Node.tells_kind {x : Node} (h : x.controlsAct = true) : x.kind.Tells x := by
  obtain ⟨hact, htoffoli⟩ := controlsAct_iff.1 h
  -- Without a first control no kind is controlled.
  have hfirst : x.kind.isControlled = true → x.control.isSome = true := by
    intro hk
    by_contra hnone
    rw [Bool.not_eq_true] at hnone
    rw [Node.kind, hnone, Kind.isControlled_of_no_control] at hk
    cases hk
  have hnot : x.secondControl = none → x.kind ≠ .toffoli := by
    intro hs
    rw [Node.kind, hs]
    exact Kind.of_ne_toffoli _ _ _
  have hone : x.control.isSome = true → x.kind.isControlled = true := by
    intro hc
    obtain ⟨row, hrow⟩ := Option.isSome_iff_exists.1 hc
    exact hact (List.ne_nil_of_mem (mem_controls.2 (.inl hrow)))
  refine ⟨⟨?_, ?_⟩, ⟨?_, fun hboth => htoffoli hboth.2⟩, ?_, ?_⟩
  · rintro ⟨t, ht⟩
    refine ⟨hfirst (by rw [ht]; rfl), ?_⟩
    by_contra hs
    rw [htoffoli (Option.isSome_iff_ne_none.2 hs)] at ht
    cases ht
  · rintro ⟨hc, hs⟩
    exact Kind.exists_controlled_of (hone hc) (hnot hs)
  · intro hk
    refine ⟨hfirst (by rw [hk]; rfl), ?_⟩
    by_contra hs
    rw [Bool.not_eq_true, Option.isSome_eq_false_iff, Option.isNone_iff_eq_none] at hs
    exact hnot hs hk
  · intro hnil
    by_contra hk
    obtain ⟨row, hrow⟩ := Option.isSome_iff_exists.1 (hfirst (by simpa using hk))
    have hmem : row ∈ x.controls := mem_controls.2 (.inl hrow)
    rw [hnil] at hmem
    cases hmem
  · intro hs
    exact hfirst (by rw [htoffoli hs]; rfl)

/-! ### Nodes under construction -/

/-- A node under construction, with its kind written down. -/
structure Draft where
  kind : Kind
  theta : Binary64
  phi : Option Binary64
  lambda : Option Binary64
  control : Option Nat
  secondControl : Option Nat
  partner : Option Nat

namespace Draft

/-- A change of a node under construction. -/
inductive Step
  | theta (theta : Binary64)
  | phi (phi : Option Binary64)
  | lambda (lambda : Option Binary64)
  | control (row : Option Nat)
  | secondControl (row : Option Nat)
  | partner (row : Option Nat)

/-- The draft with its kind brought up to date.  Each rule starts from the kind that the one
before has left: the bare gate, rotated, controlled, and doubly controlled. -/
def updated (d : Draft) : Draft :=
  let bare := Kind.plain d.kind.symbol
  let turned := if Angle.isNeutral d.theta then bare else bare.rotated?.getD bare
  let held := if d.control.isSome then turned.controlled?.getD turned else turned
  let kind :=
    if d.control.isSome && d.secondControl.isSome && (held == .plain .x || held == .controlled .x)
    then .toffoli else held
  { d with kind }

/-- The draft of a kind, without angles and links. -/
def ofKind (k : Kind) : Draft := updated ⟨k, .pi, none, none, none, none, none⟩

/-- Angles other than the turn and the partner leave the kind as it is. -/
def step (d : Draft) : Step → Draft
  | .theta theta => { d with theta }.updated
  | .phi phi => { d with phi }
  | .lambda lambda => { d with lambda }
  | .control row => { d with control := row }.updated
  | .secondControl row => { d with secondControl := row }.updated
  | .partner row => { d with partner := row }

/-- The draft that some changes make out of a kind. -/
def build (k : Kind) (steps : List Step) : Draft := steps.foldl step (ofKind k)

/-- The node that is made. -/
def node (d : Draft) : Node :=
  ⟨d.kind.symbol, 0, d.theta, d.phi, d.lambda, d.control, d.secondControl, d.partner⟩

/-- The kind that is written down is the one that the node has. -/
def Current (d : Draft) : Prop := d.node.kind = d.kind

theorem kind_updated (d : Draft) :
    d.updated.kind = Kind.of d.kind.symbol (!Angle.isNeutral d.theta) d.control.isSome
      d.secondControl.isSome := by
  simp only [updated]
  generalize d.kind.symbol = s, Angle.isNeutral d.theta = r, d.control.isSome = c,
    d.secondControl.isSome = e
  cases s <;> cases r <;> cases c <;> cases e <;> rfl

theorem current_updated (d : Draft) : d.updated.Current := by
  have hsymbol : d.updated.kind.symbol = d.kind.symbol := by rw [kind_updated, Kind.symbol_of]
  rw [Current, Node.kind]
  change Kind.of d.updated.kind.symbol _ _ _ = _
  rw [hsymbol, kind_updated]
  rfl

theorem Current.step {d : Draft} (h : d.Current) (s : Step) : (d.step s).Current := by
  cases s with
  | theta theta => exact current_updated _
  | phi phi => exact h
  | lambda lambda => exact h
  | control row => exact current_updated _
  | secondControl row => exact current_updated _
  | partner row => exact h

/-- In whatever way a node is made, the kind that has been kept beside it is its kind. -/
theorem kind_build (k : Kind) (steps : List Step) :
    (build k steps).node.kind = (build k steps).kind := by
  have hrun : ∀ {d : Draft}, d.Current → (steps.foldl Draft.step d).Current := by
    induction steps with
    | nil => exact fun h => h
    | cons s rest ih => exact fun h => ih (h.step s)
  exact hrun (current_updated _)

end Draft

namespace Circuit

variable {n d : Nat} {c : Circuit n d}

/-- Every node of a circuit is sound, whatever nodes have been stored in it: it knows its row, its
links are different other rows of the column, no two nodes of a column are linked to one row, and
its kind tells its controls.  The last also holds of the kind that is kept beside the node while
it is made. -/
theorem nodes_sound (h : c.Reachable) :
    (∀ cell, (c.node cell).row = cell.row) ∧
    (∀ cell, (c.node cell).links.Nodup ∧
      ∀ link ∈ (c.node cell).links, link < n ∧ link ≠ cell.row) ∧
    (∀ col row other link, link ∈ (c.node ⟨row, col⟩).links →
      link ∈ (c.node ⟨other, col⟩).links → row = other) ∧
    (∀ cell, (c.node cell).kind.Tells (c.node cell)) ∧
    ∀ cell k steps, (Draft.build k steps).node.atRow cell.row = c.node cell →
      (Draft.build k steps).kind = (c.node cell).kind := by
  refine ⟨fun cell => (h.linked cell.col).row_node cell.row, fun cell => ⟨?_, fun link hl => ?_⟩,
    fun col row other link hl hl' => (h.linked col).owner_eq hl hl',
    fun cell => Node.tells_kind ((h.linked cell.col).controlsAct cell.row),
    fun cell k steps hnode => ?_⟩
  · exact (h.linked cell.col).nodup_links cell.row
  · exact ⟨(h.linked cell.col).lt_of_mem hl, (h.linked cell.col).ne_of_mem hl⟩
  · rw [← hnode, Node.kind_atRow, Draft.kind_build]

/-- A doubly controlled X that was put over a controlled gate, which now is one of its controls. -/
def overrun : Circuit 4 1 :=
  (blank.after (.edit 0 (.place 1 { Node.ofSymbol .z with control := some 2 }))).after
    (.edit 0 (.place 0
      (Draft.build (.plain .x) [.control (some 1), .secondControl (some 3)]).node))

theorem reachable_overrun : overrun.Reachable := (Reachable.blank.after _).after _

theorem nodes_sound_overrun :
    overrun.Reachable ∧ (overrun.node ⟨0, 0⟩).links = [1, 3] ∧
      (overrun.node ⟨1, 0⟩).kind = .control ∧ (overrun.node ⟨2, 0⟩).kind = .empty ∧
      (∀ link ∈ (overrun.node ⟨0, 0⟩).links, link < 4 ∧ link ≠ 0) ∧
      (Draft.build (.plain .x) [.control (some 1), .secondControl (some 3)]).kind =
        (overrun.node ⟨0, 0⟩).kind ∧
      (overrun.node ⟨0, 0⟩).kind = .toffoli := by
  have h := nodes_sound reachable_overrun
  have hlinks : (overrun.node ⟨0, 0⟩).links = [1, 3] := by decide +kernel
  have hcontrols : (overrun.node ⟨0, 0⟩).control.isSome = true ∧
      (overrun.node ⟨0, 0⟩).secondControl.isSome = true := by decide +kernel
  refine ⟨reachable_overrun, hlinks, by decide +kernel, by decide +kernel, (h.2.1 ⟨0, 0⟩).2, ?_,
    (h.2.2.2.1 ⟨0, 0⟩).toffoli_iff.2 hcontrols⟩
  exact h.2.2.2.2 ⟨0, 0⟩ _ _ (by decide +kernel)

end Circuit

end QuantumCircuit

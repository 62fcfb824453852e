import QuantumCircuit.Proofs.SoundNodes

/-!
# Nodes do not remember how they were made

A node under construction keeps its kind beside its fields, and every change of the angle or of a
control works the new kind out from the old one.  No layer of a kind hides the symbol under it
(`Draft.symbol_step`), so that the kind can be worked out from the symbol and the fields alone
(`Draft.current_build`).

* `path_independent` : what a series of changes makes of a kind depends on the symbol under the
  kind and on the final fields only.  The kind is what the final angle and controls dictate
  (`Kind.Dictated`), and it is the plain one again as soon as they dictate nothing.
-/

namespace QuantumCircuit

/-- The kind is the one that a symbol, an angle and controls dictate.  Turned gates about X and Y
have no controlled form, and one about Z has a form of its own; the doubly controlled gate is an X
that is not turned. -/
structure Kind.Dictated (k : Kind) (s : Symbol) (theta : Binary64)
    (control second : Option Nat) : Prop where
  symbol_eq : k.symbol = s
  rotated_iff : ∀ a, k = rotated a ↔
    a.symbol = s ∧ Angle.isNeutral theta = false ∧ (control.isSome = false ∨ a ≠ .z)
  controlled_iff : ∀ t, k = controlled t ↔ t.symbol = s ∧ control.isSome = true ∧
    (t = .x → second.isSome = false) ∧
    (t = .x ∨ t = .y ∨ t = .z → Angle.isNeutral theta = true) ∧
    (t = .rotatedZ → Angle.isNeutral theta = false)
  toffoli_iff : k = toffoli ↔
    s = .x ∧ Angle.isNeutral theta = true ∧ control.isSome = true ∧ second.isSome = true

theorem Kind.dictated_of (s : Symbol) (theta : Binary64) (control second : Option Nat) :
    (Kind.of s (!Angle.isNeutral theta) control.isSome second.isSome).Dictated s theta control
      second := by
  refine ⟨symbol_of .., fun a => ?_, fun t => ?_, ?_⟩ <;>
    generalize Angle.isNeutral theta = r, control.isSome = c, second.isSome = e
  · cases s <;> cases a <;> cases r <;> cases c <;> cases e <;> decide
  · cases s <;> cases t <;> cases r <;> cases c <;> cases e <;> decide
  · cases s <;> cases r <;> cases c <;> cases e <;> decide

/-- A kind that nothing turns and nothing controls is plain. -/
theorem Kind.Dictated.eq_plain {k : Kind} {s : Symbol} {theta : Binary64} {second : Option Nat}
    (h : k.Dictated s theta none second) (htheta : Angle.isNeutral theta = true) : k = plain s := by
  cases k with
  | plain s' => rw [← h.symbol_eq]; rfl
  | rotated a =>
    have hturned := ((h.rotated_iff a).1 rfl).2.1
    rw [htheta] at hturned
    cases hturned
  | controlled t => cases ((h.controlled_iff t).1 rfl).2.1
  | toffoli => cases (h.toffoli_iff.1 rfl).2.2.1

/-- One field of a node is assigned. -/
def Node.assign (x : Node) : Draft.Step → Node
  | .theta theta => { x with theta }
  | .phi phi => { x with phi }
  | .lambda lambda => { x with lambda }
  | .control row => { x with control := row }
  | .secondControl row => { x with secondControl := row }
  | .partner row => { x with partner := row }

namespace Draft

/-- The drafts have the same angles and links. -/
structure SameFields (d d' : Draft) : Prop where
  theta : d.theta = d'.theta
  phi : d.phi = d'.phi
  lambda : d.lambda = d'.lambda
  control : d.control = d'.control
  secondControl : d.secondControl = d'.secondControl
  partner : d.partner = d'.partner

theorem symbol_updated (d : Draft) : d.updated.kind.symbol = d.kind.symbol := by
  rw [kind_updated, Kind.symbol_of]

/-- No change hides the symbol. -/
theorem symbol_step (d : Draft) (s : Step) : (d.step s).kind.symbol = d.kind.symbol := by
  cases s with
  | theta theta => exact symbol_updated _
  | phi phi => rfl
  | lambda lambda => rfl
  | control row => exact symbol_updated _
  | secondControl row => exact symbol_updated _
  | partner row => rfl

theorem node_updated (d : Draft) : d.updated.node = d.node := by
  have hsymbol := d.symbol_updated
  rw [node, hsymbol]
  rfl

/-- A change assigns one field of the node that is made. -/
theorem node_step (d : Draft) (s : Step) : (d.step s).node = d.node.assign s := by
  cases s with
  | theta theta => exact node_updated _
  | phi phi => rfl
  | lambda lambda => rfl
  | control row => exact node_updated _
  | secondControl row => exact node_updated _
  | partner row => rfl

theorem symbol_build (k : Kind) (steps : List Step) :
    (build k steps).kind.symbol = k.symbol := by
  have hrun : ∀ d : Draft, (steps.foldl step d).kind.symbol = d.kind.symbol := by
    induction steps with
    | nil => exact fun _ => rfl
    | cons s rest ih => exact fun d => (ih (d.step s)).trans (d.symbol_step s)
  exact (hrun _).trans (symbol_updated _)

/-- The changes assign their fields one after the other, and that is all they do to the node. -/
theorem node_build (k : Kind) (steps : List Step) :
    (build k steps).node = steps.foldl Node.assign (.ofKind k) := by
  have hrun : ∀ d : Draft, (steps.foldl step d).node = steps.foldl Node.assign d.node := by
    induction steps with
    | nil => exact fun _ => rfl
    | cons s rest ih =>
      intro d
      rw [List.foldl_cons, List.foldl_cons, ih, node_step]
  have hfirst : (ofKind k).node = .ofKind k := by
    rw [ofKind, node_updated, node, Node.ofKind, Node.ofSymbol]
  rw [build, hrun, hfirst]

theorem dictated_build (k : Kind) (steps : List Step) :
    (build k steps).kind.Dictated k.symbol (build k steps).theta (build k steps).control
      (build k steps).secondControl := by
  have hkind : (build k steps).kind = Kind.of k.symbol (!Angle.isNeutral (build k steps).theta)
      (build k steps).control.isSome (build k steps).secondControl.isSome := by
    rw [← kind_build, ← symbol_build k steps]
    rfl
  rw [hkind]
  exact Kind.dictated_of ..

/-- Drafts that agree in symbol and fields agree in their kinds, if these are up to date. -/
theorem Current.eq_of_sameFields {d d' : Draft} (h : d.Current) (h' : d'.Current)
    (hsymbol : d.kind.symbol = d'.kind.symbol) (hfields : d.SameFields d') : d = d' := by
  have hnode : d.node = d'.node := by
    rw [node, node, hsymbol, hfields.theta, hfields.phi, hfields.lambda, hfields.control,
      hfields.secondControl, hfields.partner]
  have hkind : d.kind = d'.kind := by
    rw [← h, ← h', hnode]
  cases d
  cases d'
  obtain ⟨rfl, rfl, rfl, rfl, rfl, rfl⟩ := hfields
  cases hkind
  rfl

/-- What a series of changes makes of a kind.  The symbol is there all the time.  The node has the
fields that were assigned last, and the kind is the one that they dictate: two series of changes
that start from the same symbol and end with the same fields lead to the same draft, whatever came
between.  In particular the kind is controlled only as long as there is a first control and rotated
only as long as the angle is not neutral, and when neither is left it is the plain kind. -/
theorem path_independent (k : Kind) (steps : List Step) :
    (∀ first, first <+: steps → (build k first).kind.symbol = k.symbol) ∧
    (build k steps).node = steps.foldl Node.assign (.ofKind k) ∧
    (build k steps).node.kind = (build k steps).kind ∧
    (build k steps).kind.Dictated k.symbol (build k steps).theta (build k steps).control
      (build k steps).secondControl ∧
    (∀ k' steps', k'.symbol = k.symbol → (build k' steps').SameFields (build k steps) →
      build k' steps' = build k steps) ∧
    (build k (steps ++ [.control none])).kind.isControlled = false ∧
    (∀ theta, Angle.isNeutral theta = true →
      (∀ a, (build k (steps ++ [.theta theta])).kind ≠ .rotated a) ∧
      (build k (steps ++ [.theta theta])).kind ≠ .controlled .rotatedZ) ∧
    ((build k steps).control = none → Angle.isNeutral (build k steps).theta = true →
      (build k steps).kind = .plain k.symbol) := by
  have hlast : ∀ s, build k (steps ++ [s]) = (build k steps).step s := fun s => by
    rw [build, List.foldl_append]
    rfl
  refine ⟨fun first _ => symbol_build k first, node_build k steps, kind_build k steps,
    dictated_build k steps, fun k' steps' hsymbol hfields => ?_, ?_, fun theta htheta => ?_,
    fun hcontrol htheta => ?_⟩
  · refine Current.eq_of_sameFields (kind_build k' steps') (kind_build k steps) ?_ hfields
    rw [symbol_build, symbol_build, hsymbol]
  · rw [hlast]
    exact (congrArg Kind.isControlled (kind_updated _)).trans (Kind.isControlled_of_no_control ..)
  · have hdictated := dictated_build k (steps ++ [.theta theta])
    have hangle : (build k (steps ++ [.theta theta])).theta = theta := by
      rw [hlast]
      rfl
    rw [hangle] at hdictated
    constructor
    · intro a ha
      have hturned := ((hdictated.rotated_iff a).1 ha).2.1
      rw [htheta] at hturned
      cases hturned
    · intro hcrz
      have hturned := ((hdictated.controlled_iff _).1 hcrz).2.2.2.2 rfl
      rw [htheta] at hturned
      cases hturned
  · have hdictated := dictated_build k steps
    rw [hcontrol] at hdictated
    exact hdictated.eq_plain htheta

/-- Changes that give a Z a control and an angle, and take both away again in between. -/
def winding : List Step :=
  [.control (some 2), .theta 1, .secondControl (some 0), .theta .pi, .control none,
    .secondControl none, .theta 2, .control (some 1)]

/-- Changes that give a Z the same control and the same angle at once. -/
def straight : List Step := [.control (some 1), .theta 2]

theorem path_independent_winding :
    Kind.symbol (.controlled .rotatedZ) = Kind.symbol (.plain .z) ∧
      (build (.controlled .rotatedZ) winding).SameFields (build (.plain .z) straight) ∧
      build (.controlled .rotatedZ) winding = build (.plain .z) straight ∧
      (build (.plain .z) straight).kind = .controlled .rotatedZ ∧
      (build (.plain .z) (straight ++ [.theta .pi] ++ [.control none])).kind = .plain .z := by
  have hfields :
      (build (.controlled .rotatedZ) winding).SameFields (build (.plain .z) straight) := by
    constructor <;> decide +kernel
  have hback := path_independent (.plain .z) (straight ++ [.theta .pi] ++ [.control none])
  refine ⟨rfl, hfields, ?_, by decide +kernel, ?_⟩
  · exact (path_independent (.plain .z) straight).2.2.2.2.1 _ winding rfl hfields
  · exact hback.2.2.2.2.2.2.2 (by decide +kernel) (by decide +kernel)

end Draft

end QuantumCircuit

import Mathlib.Tactic.SplitIfs
import QuantumCircuit.Proofs.Column.Change
import QuantumCircuit.Proofs.Column.Linked

/-!
# Angles in a column

Edits move nodes about, link them and mark rows, and only two things bring angles into a column: a
new gate, whose angles are finite, and a rotation.  If the angles of the axes belong to a set `T`
that contains π and all finite numbers brought into one turn (`Angle.Closed`), then every edit
keeps to the set, apart from rotations that lead out of it (`Column.AnglesIn.apply`).
-/

namespace QuantumCircuit

/-- The set contains π, and all finite angles once they are brought into one turn. -/
structure Angle.Closed (T : Binary64 → Prop) : Prop where
  pi : T .pi
  wrap : ∀ {a : Binary64}, a.isFinite = true → T (a.wrap .turn)

/-- A rotation by `delta` does not lead out of the set. -/
def Angle.KeptBy (T : Binary64 → Prop) (delta : Binary64) : Prop :=
  ∀ theta, T theta → T ((theta + delta).wrap .turn)

/-- The angle about the axis belongs to the set, and the other angles are finite. -/
structure Node.AnglesIn (T : Binary64 → Prop) (x : Node) : Prop where
  theta : T x.theta
  phi : ∀ a ∈ x.phi, a.isFinite = true
  lambda : ∀ a ∈ x.lambda, a.isFinite = true

namespace Node

variable {T : Binary64 → Prop} {x y : Node}

theorem anglesIn_ofSymbol (hT : Angle.Closed T) (s : Symbol) : (ofSymbol s).AnglesIn T where
  theta := by simp only [ofSymbol, hT.pi]
  phi := by simp [ofSymbol]
  lambda := by simp [ofSymbol]

/-- Links and rows do not matter for the angles. -/
theorem AnglesIn.of_eq (h : x.AnglesIn T) (htheta : y.theta = x.theta) (hphi : y.phi = x.phi)
    (hlambda : y.lambda = x.lambda) : y.AnglesIn T :=
  ⟨htheta ▸ h.theta, hphi ▸ h.phi, hlambda ▸ h.lambda⟩

theorem AnglesIn.atRow (h : x.AnglesIn T) (row : Nat) : (x.atRow row).AnglesIn T :=
  h.of_eq rfl rfl rfl

end Node

namespace Column

variable {n : Nat} {c c' : Column n} {T : Binary64 → Prop} {row : Nat} {x : Node}

/-- All nodes have their angles in the set. -/
def AnglesIn (T : Binary64 → Prop) (c : Column n) : Prop := ∀ r, (c.node r).AnglesIn T

theorem anglesIn_blank (hT : Angle.Closed T) : (blank : Column n).AnglesIn T := fun r => by
  rw [node_blank]
  exact (Node.anglesIn_ofSymbol hT .empty).atRow r

/-- A new gate has the angles that it was given. -/
theorem anglesIn_newNode (hT : Angle.Closed T) {g : NewGate} (h : newNode g = .ok x) :
    x.AnglesIn T := by
  unfold newNode at h
  split at h
  · cases h
    exact Node.anglesIn_ofSymbol hT g.symbol
  · rename_i theta more hangles
    have hfinite : ∀ a ∈ theta :: more, a.isFinite = true := hangles ▸ g.isFinite_angles
    split_ifs at h
    cases h
    refine ⟨hT.wrap (hfinite theta List.mem_cons_self), fun a ha => ?_, fun a ha => ?_⟩ <;>
      exact hfinite a (List.mem_cons_of_mem _ (List.mem_of_getElem? ha))

namespace AnglesIn

/-! ### Writes -/

theorem overwrite (h : c.AnglesIn T) (hT : Angle.Closed T) (hx : x.AnglesIn T) :
    (c.overwrite row x).AnglesIn T :=
  forall_node_overwrite (P := fun _ y => y.AnglesIn T)
    (fun r => (Node.anglesIn_ofSymbol hT .control).atRow r) (hx.atRow row)
    (fun r => (Node.anglesIn_ofSymbol hT .empty).atRow r) h

theorem clear (h : c.AnglesIn T) (hT : Angle.Closed T) (row : Nat) : (c.clear row).AnglesIn T :=
  h.overwrite hT ((Node.anglesIn_ofSymbol hT .empty).atRow row)

theorem fillGap (h : c.AnglesIn T) (hT : Angle.Closed T) (row : Nat) :
    (c.fillGap row).AnglesIn T := by
  unfold Column.fillGap
  split
  · exact h.overwrite hT ((Node.anglesIn_ofSymbol hT .trace).atRow row)
  · exact h

theorem place (h : c.AnglesIn T) (hT : Angle.Closed T) (hx : x.AnglesIn T)
    (hok : c.place row x = .ok c') : c'.AnglesIn T := by
  obtain ⟨-, rfl⟩ := place_eq_ok hok
  exact h.overwrite hT hx

theorem relink (h : c.AnglesIn T) (hT : Angle.Closed T) {gate : Nat} (hx : x.AnglesIn T)
    (hok : c.relink gate row x = .ok c') : c'.AnglesIn T := by
  obtain ⟨-, -, rfl⟩ := relink_eq_ok hok
  exact (h.overwrite hT hx).clear hT row

theorem deleteGate (h : c.AnglesIn T) (hT : Angle.Closed T) (gate : Nat) :
    (c.deleteGate gate).AnglesIn T := by
  have hclear : ∀ (rows : List Nat) {c : Column n}, c.AnglesIn T →
      (rows.foldl Column.clear c).AnglesIn T := by
    intro rows
    induction rows with
    | nil => exact id
    | cons r rest ih => exact fun h => ih (h.clear hT r)
  exact hclear _ h

/-! ### Edits -/

/-- A new link: both rows are looked at, and then the gate is put back with the link. -/
theorem checked_relink (h : c.AnglesIn T) (hT : Angle.Closed T) {gate : Nat} {allowed : Bool}
    {fault : EditError Nat} (hx : x.AnglesIn T)
    (hok : (do
      c.checkRow gate
      c.checkRow row
      if allowed then c.relink gate row x else .error fault) = .ok c') : c'.AnglesIn T := by
  obtain ⟨_, -, hok⟩ := bind_eq_ok hok
  obtain ⟨_, -, hok⟩ := bind_eq_ok hok
  split at hok
  · exact h.relink hT hx hok
  · cases hok

theorem attachControl (h : c.AnglesIn T) (hT : Angle.Closed T) {gate : Nat}
    (hok : c.attachControl gate row = .ok c') : c'.AnglesIn T := by
  refine h.checked_relink hT ?_ hok
  exact (h gate).of_eq rfl rfl rfl

theorem attachSecondControl (h : c.AnglesIn T) (hT : Angle.Closed T) {gate : Nat}
    (hok : c.attachSecondControl gate row = .ok c') : c'.AnglesIn T := by
  refine h.checked_relink hT ?_ hok
  exact (h gate).of_eq rfl rfl rfl

theorem attachPartner (h : c.AnglesIn T) (hT : Angle.Closed T) {gate : Nat}
    (hok : c.attachPartner gate row = .ok c') : c'.AnglesIn T := by
  refine h.checked_relink hT ?_ hok
  exact (h gate).of_eq rfl rfl rfl

theorem detachControls (h : c.AnglesIn T) (hT : Angle.Closed T) {gate : Nat}
    (hok : c.detachControls gate = .ok c') : c'.AnglesIn T := by
  obtain ⟨_, -, hok⟩ := bind_eq_ok hok
  split at hok
  · cases hok
    exact h
  · refine h.place hT ?_ hok
    exact (h gate).of_eq rfl rfl rfl

theorem moveControl (h : c.AnglesIn T) (hT : Angle.Closed T) {gate : Nat} {d : Direction}
    (hok : c.moveControl gate d = .ok (c', row)) : c'.AnglesIn T := by
  obtain ⟨_, -, hok⟩ := bind_eq_ok hok
  split at hok
  · split at hok
    · split at hok
      · obtain ⟨moved, hmoved, hok⟩ := bind_eq_ok hok
        have hplaced : moved.AnglesIn T := by
          refine h.place hT ?_ hmoved
          exact (h gate).of_eq rfl rfl rfl
        cases hok
        cases gap? gate row d with
        | none => exact hplaced.clear hT row
        | some gap => exact (hplaced.clear hT row).fillGap hT gap
      · cases hok
    · cases hok
  · cases hok

theorem delete (h : c.AnglesIn T) (hT : Angle.Closed T) (hok : c.delete row = .ok c') :
    c'.AnglesIn T := by
  rcases delete_eq_ok hok with rfl | ⟨gate, rfl⟩
  · exact h
  · exact h.deleteGate hT gate

theorem rotate (h : c.AnglesIn T) (hT : Angle.Closed T) {delta : Binary64}
    (hkept : T (((c.node row).theta + delta).wrap .turn)) (hok : c.rotate row delta = .ok c') :
    c'.AnglesIn T := by
  obtain ⟨_, -, hok⟩ := bind_eq_ok hok
  dsimp only at hok
  split at hok
  · refine h.place hT ?_ hok
    exact ⟨hkept, (h row).phi, (h row).lambda⟩
  · cases hok

/-- An edit keeps to the set if a rotation does not lead out of it and a node of the caller's
making has its angles in it. -/
theorem apply (h : c.AnglesIn T) (hT : Angle.Closed T) {e : ColumnEdit} {told : Option Nat}
    (hplace : ∀ row x, e = .place row x → x.AnglesIn T)
    (hrotate : ∀ row delta, e = .rotate row delta → Angle.KeptBy T delta)
    (hok : c.apply e = .ok (c', told)) : c'.AnglesIn T := by
  cases e with
  | place row x => exact h.place hT (hplace row x rfl) (told_eq_ok hok)
  | attachControl gate row => exact h.attachControl hT (told_eq_ok hok)
  | attachSecondControl gate row => exact h.attachSecondControl hT (told_eq_ok hok)
  | detachControls gate => exact h.detachControls hT (told_eq_ok hok)
  | moveControl gate d =>
    obtain ⟨⟨_, _⟩, hd, heq⟩ := map_eq_ok hok
    cases heq
    exact h.moveControl hT hd
  | attachPartner gate row => exact h.attachPartner hT (told_eq_ok hok)
  | delete row => exact h.delete hT (told_eq_ok hok)
  | rotate row delta =>
    exact h.rotate hT (hrotate row delta rfl _ (h row).theta) (told_eq_ok hok)

/-! ### Gestures -/

theorem placeNew (h : c.AnglesIn T) (hT : Angle.Closed T) {g : NewGate}
    (hok : c.placeNew row g = .ok c') : c'.AnglesIn T := by
  obtain ⟨_, -, hok⟩ := bind_eq_ok hok
  split at hok
  · obtain ⟨x, hnew, hok⟩ := bind_eq_ok hok
    exact h.place hT (anglesIn_newNode hT hnew) hok
  · cases hok

theorem toggleGate (h : c.AnglesIn T) (hT : Angle.Closed T) {kind : Kind}
    (hok : c.toggleGate row kind = .ok c') : c'.AnglesIn T := by
  obtain ⟨_, -, hok⟩ := bind_eq_ok hok
  split at hok
  · obtain ⟨g, -, hok⟩ := bind_eq_ok hok
    exact h.placeNew hT hok
  · split at hok
    · exact h.delete hT hok
    · cases hok

theorem toggleControl (h : c.AnglesIn T) (hT : Angle.Closed T)
    (hok : c.toggleControl row = .ok c') : c'.AnglesIn T := by
  obtain ⟨_, -, hok⟩ := bind_eq_ok hok
  split at hok
  · obtain ⟨_, -, hok⟩ := firstSuccess_eq_ok hok
    exact h.attachControl hT hok
  · exact h.detachControls hT hok

theorem addSecondControl (h : c.AnglesIn T) (hT : Angle.Closed T) {r : Nat}
    (hok : c.addSecondControl row = .ok (c', r)) : c'.AnglesIn T := by
  obtain ⟨_, -, hok⟩ := bind_eq_ok hok
  obtain ⟨_, -, hok⟩ := firstUnoccupied_eq_ok hok
  exact h.attachSecondControl hT (told_eq_ok hok)

theorem toggleSwap (h : c.AnglesIn T) (hT : Angle.Closed T)
    (hok : c.toggleSwap row = .ok c') : c'.AnglesIn T := by
  obtain ⟨_, -, hok⟩ := bind_eq_ok hok
  split at hok
  · refine h.place hT ?_ hok
    exact (h row).of_eq rfl rfl rfl
  · obtain ⟨_, -, hok⟩ := firstUnoccupied_eq_ok hok
    exact h.attachPartner hT hok

end AnglesIn

end Column

end QuantumCircuit

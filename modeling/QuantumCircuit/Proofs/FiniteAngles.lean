import Mathlib.Algebra.Group.Nat.Defs
import QuantumCircuit.Proofs.Column.Angles
import QuantumCircuit.Proofs.History
import QuantumCircuit.Proofs.Letters
import QuantumCircuit.Proofs.Number.Turn

/-!
# Finite angles

A new gate comes with finite angles, but a rotation takes any angle: a difference that is not
finite, or a multiple of π whose factor is beyond all finite numbers, leaves NaN behind, and no
later rotation brings such a gate back.

* `angles_finite` : the angle about the axis is from zero to a full turn or NaN, the other angles
  are finite, and `inf` is not in the program; if all rotations are finite
  (`Circuit.FiniteReachable`) there is no NaN either.
* `angle_lost` : one rotation that is not finite, and the program has a `NaN`.

That no gate is turned out of its turn comes down to two sets of angles that every rotation keeps
(`Angle.Closed`, `Angle.KeptBy`).
-/

namespace QuantumCircuit

namespace Angle

/-- From zero to a full turn, or NaN. -/
def Wrapped (theta : Binary64) : Prop := theta = .nan ∨ theta.WithinTurn

theorem closed_withinTurn : Closed Binary64.WithinTurn where
  pi := Binary64.withinTurn_pi
  wrap := .wrap

/-- Whatever is brought into one turn is wrapped. -/
theorem wrapped_wrap (a : Binary64) : Wrapped (a.wrap .turn) := by
  cases h : a.isFinite with
  | true => exact .inr (.wrap h)
  | false => exact .inl (Binary64.wrap_eq_nan h)

theorem closed_wrapped : Closed Wrapped where
  pi := .inr Binary64.withinTurn_pi
  wrap _ := wrapped_wrap _

/-- A finite rotation keeps an angle within its turn. -/
theorem keptBy_of_isFinite {delta : Binary64} (h : delta.isFinite = true) :
    KeptBy Binary64.WithinTurn delta :=
  fun _ htheta => .wrap (htheta.isFinite_add h)

end Angle

/-- The action rotates by finite angles only. -/
def Action.IsFinite : Action → Prop
  | .command (.rotate _ delta) | .edit _ (.rotate _ delta) => delta.isFinite = true
  | .command (.rotateTo _ text) =>
    ∀ theta, Editor.readAngle text = .ok theta → theta.isFinite = true
  | _ => True

/-- No rotation of the action leads out of the set. -/
def Action.KeepsTo (T : Binary64 → Prop) : Action → Prop
  | .command (.rotate _ delta) | .edit _ (.rotate _ delta) => Angle.KeptBy T delta
  | .command (.rotateTo _ text) => ∀ target, Editor.readAngle text = .ok target →
    ∀ theta, T theta → T ((theta + (target - theta)).wrap .turn)
  | _ => True

/-- Every rotation leads to a wrapped angle. -/
theorem Action.keepsTo_wrapped (a : Action) : a.KeepsTo Angle.Wrapped := by
  unfold KeepsTo
  split
  · exact fun _ _ => Angle.wrapped_wrap _
  · exact fun _ _ => Angle.wrapped_wrap _
  · exact fun _ _ _ _ => Angle.wrapped_wrap _
  · trivial

theorem Action.IsFinite.keepsTo {a : Action} (h : a.IsFinite) :
    a.KeepsTo Binary64.WithinTurn := by
  unfold KeepsTo
  split
  · exact Angle.keptBy_of_isFinite h
  · exact Angle.keptBy_of_isFinite h
  · intro target htarget theta htheta
    exact Angle.keptBy_of_isFinite (htheta.isFinite_sub (h target htarget)) theta htheta
  · trivial

namespace Circuit

variable {n d : Nat} {c c' : Circuit n d} {T : Binary64 → Prop}

/-- All nodes of the circuit have their angles in the set. -/
def AnglesIn (T : Binary64 → Prop) (c : Circuit n d) : Prop := ∀ k, (c.column k).AnglesIn T

theorem anglesIn_blank (hT : Angle.Closed T) : (blank : Circuit n d).AnglesIn T := fun k => by
  rw [column_blank]
  exact Column.anglesIn_blank hT

namespace AnglesIn

/-- A change that keeps the angles of every column in the set does so in the circuit. -/
theorem edit (h : c.AnglesIn T) {α : Type} {cell : Cell} {a : α}
    {change : Column n → Except (EditError Nat) (Column n × α)}
    (hchange : ∀ {column column' : Column n}, column.AnglesIn T →
      change column = .ok (column', a) → column'.AnglesIn T)
    (hok : c.edit cell change = .ok (c', a)) : c'.AnglesIn T := by
  intro k
  rcases column_edit_cases hok k with heq | hok
  · rw [heq]
    exact h k
  · exact hchange (h k) hok

theorem edit_silently (h : c.AnglesIn T) {cell : Cell} {told : Option Nat}
    {change : Column n → Except (EditError Nat) (Column n)}
    (hchange : ∀ {column column' : Column n}, column.AnglesIn T →
      change column = .ok column' → column'.AnglesIn T)
    (hok : c.edit cell (fun column => Editor.silently (change column)) = .ok (c', told)) :
    c'.AnglesIn T :=
  h.edit (fun hcolumn hok => hchange hcolumn (silently_eq_ok hok)) hok

theorem apply (h : c.AnglesIn T) (hT : Angle.Closed T) {col : Nat} {e : ColumnEdit}
    {told : Option Nat} (hraw : (Action.edit col e).isRaw = false)
    (hkeeps : (Action.edit col e).KeepsTo T) (hok : c.apply col e = .ok (c', told)) :
    c'.AnglesIn T := by
  refine h.edit (fun hcolumn hok => hcolumn.apply hT ?_ ?_ hok) hok
  · rintro row x rfl
    cases hraw
  · rintro row delta rfl
    exact hkeeps

theorem attempt (h : c.AnglesIn T) (hT : Angle.Closed T) {command : Command}
    {told : Option Nat} (hkeeps : (Action.command command).KeepsTo T)
    (hok : Editor.attempt c command = .ok (c', told)) : c'.AnglesIn T := by
  cases command with
  | place cell kind angles =>
    obtain ⟨g, -, hok⟩ := Column.bind_eq_ok hok
    exact h.edit_silently (fun hcolumn hok => hcolumn.placeNew hT hok) hok
  | placeText cell kind text =>
    obtain ⟨angles, -, hok⟩ := Column.bind_eq_ok hok
    obtain ⟨g, -, hok⟩ := Column.bind_eq_ok hok
    exact h.edit_silently (fun hcolumn hok => hcolumn.placeNew hT hok) hok
  | toggleGate cell kind =>
    dsimp only [Editor.attempt] at hok
    exact h.edit_silently (fun hcolumn hok => hcolumn.toggleGate hT hok) hok
  | toggleControl cell =>
    dsimp only [Editor.attempt] at hok
    exact h.edit_silently (fun hcolumn hok => hcolumn.toggleControl hT hok) hok
  | addSecondControl cell =>
    dsimp only [Editor.attempt] at hok
    refine h.edit (fun hcolumn hok => ?_) hok
    obtain ⟨⟨_, _⟩, hadd, heq⟩ := Column.map_eq_ok hok
    cases heq
    exact hcolumn.addSecondControl hT hadd
  | toggleSwap cell =>
    dsimp only [Editor.attempt] at hok
    exact h.edit_silently (fun hcolumn hok => hcolumn.toggleSwap hT hok) hok
  | moveControl cell direction =>
    refine h.apply hT rfl ?_ hok
    exact trivial
  | delete cell =>
    refine h.apply hT rfl ?_ hok
    exact trivial
  | rotate cell delta =>
    refine h.apply hT rfl ?_ hok
    exact hkeeps
  | rotateTo cell text =>
    obtain ⟨target, htarget, hok⟩ := Column.bind_eq_ok hok
    refine h.edit_silently (fun hcolumn hok => ?_) hok
    exact hcolumn.rotate hT (hkeeps target htarget _ (hcolumn cell.row).theta) hok

theorem after (h : c.AnglesIn T) (hT : Angle.Closed T) {a : Action} (hraw : a.isRaw = false)
    (hkeeps : a.KeepsTo T) : (c.after a).AnglesIn T := by
  cases a with
  | reset => exact anglesIn_blank hT
  | command command =>
    cases hresult : Editor.attempt c command with
    | error fault => rwa [Circuit.after, hresult, settle]
    | ok result =>
      rw [Circuit.after, hresult, settle]
      exact h.attempt hT hkeeps hresult
  | edit col e =>
    cases hresult : c.apply col e with
    | error fault => rwa [Circuit.after, hresult, settle]
    | ok result =>
      rw [Circuit.after, hresult, settle]
      exact h.apply hT hraw hkeeps hresult

end AnglesIn

/-! ### Histories -/

/-- The circuits that some history leads to in which all rotations are finite and nobody stores
nodes of their own making. -/
inductive FiniteReachable : Circuit n d → Prop
  | blank : FiniteReachable .blank
  | after {c : Circuit n d} (h : FiniteReachable c) (a : Action) (hraw : a.isRaw = false)
      (hfinite : a.IsFinite) : FiniteReachable (c.after a)

theorem EditReachable.anglesIn (h : c.EditReachable) : c.AnglesIn Angle.Wrapped := by
  induction h with
  | blank => exact anglesIn_blank Angle.closed_wrapped
  | after _ a hraw ih => exact ih.after Angle.closed_wrapped hraw a.keepsTo_wrapped

theorem FiniteReachable.anglesIn (h : c.FiniteReachable) : c.AnglesIn Binary64.WithinTurn := by
  induction h with
  | blank => exact anglesIn_blank Angle.closed_withinTurn
  | after _ a hraw hfinite ih => exact ih.after Angle.closed_withinTurn hraw hfinite.keepsTo

/-! ### Programs -/

theorem mem_angles {x : Node} {a : Binary64} (h : a ∈ x.angles) :
    a = x.theta ∨ a ∈ x.phi ∨ a ∈ x.lambda := by
  unfold Node.angles at h
  split at h
  · simpa [Option.mem_toList] using h
  · cases h

/-- Finite angles are written without either letter, and NaN without an `f`. -/
theorem not_mem_angleText (h : c.AnglesIn T) {ch : Char} (hch : ch = 'f' ∨ ch = 'N')
    (htheta : ∀ theta, T theta → ch ∉ (toString theta).toList) (cell : Cell) :
    ∀ a ∈ (c.node cell).angles, ch ∉ (toString a).toList := by
  intro a ha
  have hnode : (c.node cell).AnglesIn T := h cell.col cell.row
  rcases mem_angles ha with rfl | hphi | hlambda
  · exact htheta _ hnode.theta
  · exact Binary64.not_mem_toText hch (hnode.phi a hphi)
  · exact Binary64.not_mem_toText hch (hnode.lambda a hlambda)

/-- What a user can make of the angles.  The angle about the axis is a finite number from zero to
a full turn or NaN, and the others are finite, so `inf` is not in the program; and if all rotations
were finite, then no angle is NaN, and `NaN` is not in the program. -/
theorem angles_finite (h : c.EditReachable) :
    (∀ cell,
      ((c.node cell).theta = .nan ∨ (c.node cell).theta.isFinite = true ∧
        0 ≤ (c.node cell).theta ∧ (c.node cell).theta ≤ .turn) ∧
      (∀ a ∈ (c.node cell).phi, a.isFinite = true) ∧
      (∀ a ∈ (c.node cell).lambda, a.isFinite = true)) ∧
    ¬ "inf".toList <:+: c.program.toList ∧
    (c.FiniteReachable →
      (∀ cell, (c.node cell).theta ≠ .nan) ∧ ¬ "NaN".toList <:+: c.program.toList) := by
  have hangles := h.anglesIn
  refine ⟨fun cell => ?_, fun hinf => ?_, fun hfinite => ⟨fun cell => ?_, fun hnan => ?_⟩⟩
  · have hnode : (c.node cell).AnglesIn Angle.Wrapped := hangles cell.col cell.row
    exact ⟨hnode.theta.imp_right fun ht => ⟨ht.isFinite, ht.nonneg, ht.le_turn⟩, hnode.phi,
      hnode.lambda⟩
  · refine not_mem_program (not_mem_angleText hangles (.inl rfl) fun theta htheta => ?_)
      (hinf.sublist.subset (by decide))
    rcases htheta with rfl | htheta
    · decide
    · exact Binary64.not_mem_toText (.inl rfl) htheta.isFinite
  · intro hnan
    have hnode : (c.node cell).AnglesIn Binary64.WithinTurn := hfinite.anglesIn cell.col cell.row
    have htheta := hnode.theta.isFinite
    rw [hnan] at htheta
    cases htheta
  · -- The first line has one `N`, and `NaN` would need two.
    have hcount := count_program (not_mem_angleText hfinite.anglesIn (.inr rfl)
      fun theta htheta => Binary64.not_mem_toText (.inr rfl) htheta.isFinite)
    have htwo := hnan.sublist.count_le 'N'
    rw [hcount] at htwo
    exact absurd htwo (by decide)

/-- An X in a circuit of one cell. -/
def single : Circuit 1 1 := blank.after (.command (.place ⟨0, 0⟩ (.plain .x) []))

theorem angles_finite_single :
    (single.after (.command (.rotate ⟨0, 0⟩ 1))).EditReachable ∧
      (single.after (.command (.rotate ⟨0, 0⟩ 1))).FiniteReachable ∧
      ((single.after (.command (.rotate ⟨0, 0⟩ 1))).node ⟨0, 0⟩).kind = .rotated .x ∧
      ((single.after (.command (.rotate ⟨0, 0⟩ 1))).node ⟨0, 0⟩).theta ≠ .nan ∧
      ¬ "NaN".toList <:+: (single.after (.command (.rotate ⟨0, 0⟩ 1))).program.toList :=
  have hedit := (EditReachable.blank.after (n := 1) (d := 1)
    (.command (.place ⟨0, 0⟩ (.plain .x) [])) rfl).after (.command (.rotate ⟨0, 0⟩ 1)) rfl
  have hfinite := (FiniteReachable.blank.after (n := 1) (d := 1)
    (.command (.place ⟨0, 0⟩ (.plain .x) [])) rfl trivial).after
    (.command (.rotate ⟨0, 0⟩ 1)) rfl (show (1 : Binary64).isFinite = true by decide +kernel)
  have h := (angles_finite hedit).2.2 hfinite
  ⟨hedit, hfinite, by decide +kernel, h.1 ⟨0, 0⟩, h.2⟩

/-- A rotation that is not finite leaves NaN behind.  Such angles can be written: a multiple of π
may be beyond all finite numbers. -/
theorem angle_lost :
    ((single.after (.command (.rotate ⟨0, 0⟩ (.infinite false)))).node ⟨0, 0⟩).theta = .nan ∧
      "NaN".toList <:+: (single.after
        (.command (.rotate ⟨0, 0⟩ (.infinite false)))).program.toList ∧
      PiTerm.value? ⟨false, some ⟨10 ^ 309, 0⟩, none⟩ = some (.infinite false) := by
  refine ⟨by decide +kernel, by decide +kernel, by decide +kernel⟩

end Circuit

end QuantumCircuit

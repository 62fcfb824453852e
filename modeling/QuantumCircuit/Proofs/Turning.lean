import Mathlib.Control.Monad.Basic
import QuantumCircuit.Proofs.FiniteAngles
import QuantumCircuit.Proofs.Number.Difference

/-!
# Turning a gate to an angle

A gate can be put down with an angle, and a gate that is there can be turned to one.  Putting down
brings the angle into one turn.  Turning goes by way of the difference to the angle that the gate
has, so that the difference is rounded, and once more the sum with it: the gate need not end where
it would have been put down.

* `rotateTo_near_place` : a gate without controls can always be turned, and it ends near the angle
  of a gate that is put down, or exactly there if the difference is a number;
* `turned_elsewhere` : for a large angle it can end radians away, as a gate of another kind.
-/

namespace QuantumCircuit

/-- Without controls the kind of a rotatable gate tells whether it is rotated. -/
theorem Kind.of_eq_of_iff {s : Symbol} (hs : s.isRotatable = true) (r r' second second' : Bool) :
    of s r false second = of s r' false second' ↔ r = r' := by
  revert r r' second second'
  cases s with
  | x | y | z => decide
  | _ => cases hs

/-- Finite angles are accepted for a gate that can be put down. -/
theorem NewGate.exists_of_eq_ok {Place : Type} {s : Symbol} (hs : s.isNull = false)
    {angles : List Binary64} (hangles : ∀ a ∈ angles, a.isFinite = true) :
    ∃ g, (NewGate.of (.plain s) angles : Except (EditError Place) NewGate) = .ok g ∧
      g.symbol = s ∧ g.angles = angles := by
  unfold NewGate.of
  dsimp only
  rw [dif_pos hs]
  split
  · rename_i bad hbad
    have hfinite := hangles bad (List.mem_of_find?_eq_some hbad)
    have hnot := List.find?_some hbad
    rw [hfinite] at hnot
    cases hnot
  · exact ⟨_, rfl, rfl, rfl⟩

namespace Node

variable {x y : Node}

/-- The node after a turn to an angle: the difference to its own angle is added, and the sum is
brought into one turn. -/
def turnedTo (x : Node) (t : Binary64) : Node :=
  { x with theta := (x.theta + (t - x.theta)).wrap .turn }

/-- The node of a new gate with an angle. -/
def atAngle (s : Symbol) (t : Binary64) : Node := { ofSymbol s with theta := t.wrap .turn }

@[simp]
theorem controls_turnedTo (x : Node) (t : Binary64) : (x.turnedTo t).controls = x.controls := rfl

/-- Only controls link a rotatable gate to other rows. -/
theorem links_of_isRotatable (hx : x.Proper) (hgate : x.symbol.isRotatable = true)
    (hcontrols : x.controls = []) : x.links = [] := by
  have hpartner : x.partner = none := by
    cases hp : x.partner with
    | none => rfl
    | some r =>
      rw [hx.symbol_of_partner (by rw [hp]; rfl)] at hgate
      cases hgate
  rw [links, hcontrols, hpartner]
  rfl

/-- Two gates about the same axis without controls are of one kind if both angles are neutral or
neither is. -/
theorem kind_eq_iff_isNeutral (hgate : x.symbol.isRotatable = true) (hsymbol : y.symbol = x.symbol)
    (hx : x.controls = []) (hy : y.controls = []) :
    x.kind = y.kind ↔ Angle.isNeutral x.theta = Angle.isNeutral y.theta := by
  have hx : x.control = none := (controls_eq_nil_iff.1 hx).1
  have hy : y.control = none := (controls_eq_nil_iff.1 hy).1
  rw [kind, kind, hx, hy, hsymbol, Option.isSome_none, Kind.of_eq_of_iff hgate, isRotated,
    isRotated, Bool.not_inj_iff]

end Node

namespace Column

variable {n : Nat} {c : Column n} {row : Nat}

/-- A gate without controls is turned where it stands. -/
theorem Tidy.rotateTo_eq_ok (h : c.Tidy) (hrow : row < n)
    (hgate : (c.node row).symbol.isRotatable = true) (hcontrols : (c.node row).controls = [])
    (t : Binary64) :
    ∃ c', c.rotateTo row t = .ok c' ∧
      ∀ r, c'.node r = if r = row then (c.node row).turnedTo t else c.node r := by
  have hlinks := Node.links_of_isRotatable (h.proper row) hgate hcontrols
  refine ⟨c.overwrite row ((c.node row).turnedTo t), ?_, fun r => ?_⟩
  · have hallowed : ((c.node row).kind.isRotatable &&
        (((c.node row).turnedTo t).controls.isEmpty ||
          ((c.node row).turnedTo t).kind.isControlled)) = true := by
      rw [Kind.isRotatable, Node.symbol_kind, hgate, Node.controls_turnedTo, hcontrols]
      rfl
    rw [rotateTo, rotate, checkRow, if_pos hrow]
    exact (if_pos hallowed).trans (place_of_links_nil hrow hlinks)
  · by_cases hr : r < n
    · rw [node_overwrite_of_links_nil (x := (c.node row).turnedTo t) hlinks hlinks hr]
      split_ifs with heq
      · exact Node.atRow_self (heq ▸ h.row_node row)
      · rfl
    · rw [node_of_le _ (Nat.not_lt.1 hr), if_neg (by omega), node_of_le _ (Nat.not_lt.1 hr)]

/-- A rotatable gate is put down with its angle brought into one turn. -/
theorem placeNew_eq_ok (hrow : row < n) (hempty : c.reading row = .empty) {g : NewGate}
    (hgate : g.symbol.isRotatable = true) {t : Binary64} (hangles : g.angles = [t]) :
    ∃ c', c.placeNew row g = .ok c' ∧ c'.node row = (Node.atAngle g.symbol t).atRow row := by
  have hnew : newNode g = .ok (Node.atAngle g.symbol t) := by
    rw [newNode, hangles]
    simp only [hgate, Bool.not_true, Bool.false_eq_true, if_false]
    rfl
  refine ⟨c.overwrite row (Node.atAngle g.symbol t), ?_, ?_⟩
  · rw [placeNew, checkRow, if_pos hrow, hempty, hnew]
    exact place_of_links_nil hrow rfl
  · rcases c.node_overwrite_cases row (Node.atAngle g.symbol t) hrow with
      ⟨hmem, -⟩ | ⟨-, -, hnode⟩ | ⟨-, hne, -⟩
    · cases hmem
    · exact hnode
    · exact absurd rfl hne

end Column

namespace Circuit

variable {n d m e : Nat} {c : Circuit n d} {p : Circuit m e}

theorem attempt_rotateTo (h : c.EditReachable) {cell : Cell} (hcell : c.contains cell = true)
    (hgate : (c.node cell).symbol.isRotatable = true) (hcontrols : (c.node cell).controls = [])
    {text : String} {t : Binary64} (htext : Editor.readAngle text = .ok t) :
    ∃ c', Editor.attempt c (.rotateTo cell text) = .ok (c', none) ∧
      ∀ k, c'.node k = if k = cell then (c.node cell).turnedTo t else c.node k := by
  obtain ⟨hrow, hcol⟩ : cell.row < n ∧ cell.col < d := by simpa [contains] using hcell
  obtain ⟨column, hturn, hnode⟩ := (h.tidy cell.col).rotateTo_eq_ok hrow hgate hcontrols t
  refine ⟨c.withColumn cell.col column, ?_, fun k => ?_⟩
  · have hedit : Editor.attempt c (.rotateTo cell text) =
        c.edit cell fun column => Editor.silently (column.rotateTo cell.row t) := by
      rw [Editor.attempt, htext]
      rfl
    rw [hedit, edit_eq_ok_iff]
    exact ⟨hcol, column, by rw [hturn]; rfl, rfl⟩
  · exact node_withColumn hcol hnode k

theorem attempt_place {cell : Cell} (hcell : p.contains cell = true)
    (hempty : p.reading cell = .empty) {s : Symbol} (hgate : s.isRotatable = true)
    {t : Binary64} (ht : t.isFinite = true) :
    ∃ p', Editor.attempt p (.place cell (.plain s) [t]) = .ok (p', none) ∧
      p'.node cell = (Node.atAngle s t).atRow cell.row := by
  obtain ⟨hrow, hcol⟩ : cell.row < m ∧ cell.col < e := by simpa [contains] using hcell
  have hnull : s.isNull = false := Node.isNull_of_isRotatable (x := .ofSymbol s) hgate
  have hfinite : ∀ a ∈ [t], a.isFinite = true := by simpa using ht
  obtain ⟨g, hg, rfl, hangles⟩ := NewGate.exists_of_eq_ok hnull hfinite
  obtain ⟨column, hplace, hnode⟩ :=
    Column.placeNew_eq_ok (c := p.column cell.col) hrow hempty hgate hangles
  refine ⟨p.withColumn cell.col column, ?_, ?_⟩
  · have hedit : Editor.attempt p (.place cell (.plain g.symbol) [t]) =
        p.edit cell fun column => Editor.silently (column.placeNew cell.row g) := by
      rw [Editor.attempt, hg]
      rfl
    rw [hedit, edit_eq_ok_iff]
    exact ⟨hcol, column, by rw [hplace]; rfl, rfl⟩
  · rw [node, column_withColumn hcol, if_pos rfl, hnode]

/-- Turning a gate to an angle, and putting one down with that angle, brought into one turn.  Both
can always be done.  The gate that is turned keeps everything but its angle, and no other cell is
changed.  Up to whole turns and rounding it ends at the angle of the gate that is put down, and
exactly there if the difference between its old angle and the new one is a number and the new one
is not the negative zero; an angle that is NaN stays so.  The two gates are of one kind if both
angles are neutral or neither is. -/
theorem rotateTo_near_place (h : c.EditReachable) {cell other : Cell} {text : String}
    {t : Binary64} (hcell : c.contains cell = true)
    (hgate : (c.node cell).symbol.isRotatable = true) (hcontrols : (c.node cell).controls = [])
    (htext : Editor.readAngle text = .ok t) (ht : t.isFinite = true)
    (hother : p.contains other = true) (hempty : p.reading other = .empty) :
    ∃ c' p', Editor.attempt c (.rotateTo cell text) = .ok (c', none) ∧
      Editor.attempt p (.place other (.plain (c.node cell).symbol) [t]) = .ok (p', none) ∧
      (p'.node other).theta = t.wrap .turn ∧
      (∀ k, k ≠ cell → c'.node k = c.node k) ∧
      c'.node cell = { c.node cell with theta := (c'.node cell).theta } ∧
      ((c'.node cell).kind = (p'.node other).kind ↔
        Angle.isNeutral (c'.node cell).theta = Angle.isNeutral (p'.node other).theta) ∧
      ((c.node cell).theta = .nan → (c'.node cell).theta = .nan) ∧
      ((c.node cell).theta ≠ .nan →
        Binary64.NearInTurns t (c'.node cell).theta (p'.node other).theta ∧
          (Binary64.ExactDifference (c.node cell).theta t → t ≠ .zero true →
            (c'.node cell).theta = (p'.node other).theta)) := by
  obtain ⟨c', hturn, hnode⟩ := attempt_rotateTo h hcell hgate hcontrols htext
  obtain ⟨p', hplace, hplaced⟩ := attempt_place hother hempty hgate ht
  have hturned : c'.node cell = (c.node cell).turnedTo t := by rw [hnode, if_pos rfl]
  have hangle : (c'.node cell).theta =
      ((c.node cell).theta + (t - (c.node cell).theta)).wrap .turn := by
    rw [hturned]
    rfl
  have hangle' : (p'.node other).theta = t.wrap .turn := by
    rw [hplaced]
    rfl
  refine ⟨c', p', hturn, hplace, hangle', fun k hk => by rw [hnode, if_neg hk], ?_, ?_,
    fun hnan => ?_, fun hnan => ?_⟩
  · rw [hturned]
    rfl
  · rw [hturned, hplaced]
    exact Node.kind_eq_iff_isNeutral hgate rfl hcontrols rfl
  · rw [hangle, hnan]
    exact Binary64.wrap_eq_nan rfl
  · have hwithin : (c.node cell).theta.WithinTurn :=
      (h.anglesIn cell.col cell.row).theta.resolve_left hnan
    rw [hangle, hangle']
    refine ⟨Binary64.nearInTurns_wrap hwithin ht, fun hexact hzero => ?_⟩
    rw [Binary64.add_sub_eq hwithin ht hzero hexact]

/-- The X is turned from π to 2, and neither is more than twice the other. -/
theorem rotateTo_near_place_single :
    single.EditReachable ∧ single.contains ⟨0, 0⟩ = true ∧
      (single.node ⟨0, 0⟩).symbol = .x ∧ (single.node ⟨0, 0⟩).controls = [] ∧
      Editor.readAngle "2" = .ok 2 ∧ (2 : Binary64).isFinite = true ∧
      (blank : Circuit 1 1).reading ⟨0, 0⟩ = .empty ∧
      ∃ c' p', Editor.attempt single (.rotateTo ⟨0, 0⟩ "2") = .ok (c', none) ∧
        Editor.attempt (blank : Circuit 1 1) (.place ⟨0, 0⟩ (.plain .x) [2]) = .ok (p', none) ∧
        (c'.node ⟨0, 0⟩).theta = (p'.node ⟨0, 0⟩).theta ∧
        (c'.node ⟨0, 0⟩).kind = (p'.node ⟨0, 0⟩).kind := by
  have hedit : single.EditReachable :=
    EditReachable.blank.after (.command (.place ⟨0, 0⟩ (.plain .x) [])) rfl
  have hgate : (single.node ⟨0, 0⟩).symbol = .x := by decide +kernel
  have hcontrols : (single.node ⟨0, 0⟩).controls = [] := by decide +kernel
  have htext : Editor.readAngle "2" = .ok 2 := by decide +kernel
  have htwo : (2 : Binary64).isFinite = true := by decide +kernel
  have hempty : (blank : Circuit 1 1).reading ⟨0, 0⟩ = .empty := by decide +kernel
  have hexact : Binary64.ExactDifference (single.node ⟨0, 0⟩).theta 2 :=
    Binary64.exactDifference_of_le (by decide +kernel) htwo (by decide +kernel) (by decide +kernel)
  obtain ⟨c', p', hturn, hplace, -, -, -, hkind, -, hangle⟩ :=
    rotateTo_near_place hedit rfl (by rw [hgate]; rfl) hcontrols htext htwo rfl hempty
  have heq := (hangle (by decide +kernel)).2 hexact (by decide +kernel)
  rw [hgate] at hplace
  exact ⟨hedit, rfl, hgate, hcontrols, htext, htwo, hempty, c', p', hturn, hplace, heq,
    hkind.2 (by rw [heq])⟩

/-- An X that is put down with a large angle, and beside it one with the angle 1. -/
def beside : Circuit 1 2 :=
  (blank.after (.command (.placeText ⟨0, 0⟩ (.plain .x) "9007199254922870"))).after
    (.command (.placeText ⟨0, 1⟩ (.plain .x) "1"))

/-- The second X is turned to the angle of the first.  The difference is odd and beyond `2 ^ 53`,
and so it is rounded, as is the sum: the angle is two radians short, and the gate is a rotated X,
where the one that was put down is a plain one. -/
theorem turned_elsewhere :
    beside.EditReachable ∧ (beside.node ⟨0, 1⟩).symbol = .x ∧
      (beside.node ⟨0, 1⟩).controls = [] ∧
      Editor.readAngle "9007199254922870" = .ok 9007199254922870 ∧
      ((beside.after (.command (.rotateTo ⟨0, 1⟩ "9007199254922870"))).node ⟨0, 1⟩).theta ≠
        (beside.node ⟨0, 0⟩).theta ∧
      ((beside.after (.command (.rotateTo ⟨0, 1⟩ "9007199254922870"))).node ⟨0, 1⟩).kind =
        .rotated .x ∧
      (beside.node ⟨0, 0⟩).kind = .plain .x :=
  ⟨(EditReachable.blank.after _ rfl).after _ rfl, by decide +kernel, by decide +kernel,
    by decide +kernel, by decide +kernel, by decide +kernel, by decide +kernel⟩

end Circuit

end QuantumCircuit

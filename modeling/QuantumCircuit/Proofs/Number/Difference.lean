import QuantumCircuit.Proofs.Number.Turn

/-!
# Sums by way of a difference

An angle that is reached by adding a difference, `a + (b - a)`, need not be `b`: both operations
round.  This module says how far off it may be, in units, which are exact integers.

* `Binary64.units_add_near` : a sum is off by at most one part in `2 ^ 53`;
* `Magnitude.spacing_dvd_mod` : remainders are exact, and so a number that is brought into one turn
  is rounded at most once (`Binary64.wrap_near`);
* `Binary64.nearInTurns_wrap` : brought into one turn, `a + (b - a)` and `b` are close, measured by
  the larger of `b` and a turn, if `a` lies within a turn;
* `Binary64.add_sub_eq` : `a + (b - a)` is `b` if the difference is a number itself, as it is if
  neither of the two is more than twice the other (`Binary64.exactDifference_of_le`).
-/

namespace QuantumCircuit

-- Powers with natural exponents are those of the core library, whatever else is imported.
attribute [local instance (2000)] instPowNat

namespace Rounding

/-- Rounding goes to a nearest whole number. -/
theorem nearestEven_near (num : Nat) {den : Nat} (hden : 0 < den) :
    2 * (nearestEven num den * den) ≤ 2 * num + den ∧
      2 * num ≤ 2 * (nearestEven num den * den) + den := by
  have hnum := Nat.div_add_mod' num den
  have hmod := Nat.mod_lt num hden
  have hnext : (num / den + 1) * den = num / den * den + den := Nat.succ_mul _ _
  simp only [nearestEven]
  split <;> omega

/-- The spacing is one part in `2 ^ 52`, or that of the whole numbers. -/
theorem spacing_le (u : Nat) : spacing u = 1 ∨ 2 ^ (52 : Nat) * spacing u ≤ u := by
  by_cases hlog : u.log2 ≤ 52
  · exact .inl (by rw [spacing, Nat.sub_eq_zero_of_le hlog, Nat.pow_zero])
  · refine .inr ?_
    have hu : u ≠ 0 := by
      rintro rfl
      exact hlog (by simp)
    rw [spacing, ← Nat.pow_add, Nat.add_sub_of_le (by omega)]
    exact Nat.log2_self_le hu

/-- Rounding is off by at most one part in `2 ^ 53`. -/
theorem significant_near (u : Nat) :
    2 ^ (53 : Nat) * ((significant u 1 : Int) - u).natAbs ≤ u := by
  have hnear := nearestEven_near u (spacing_pos u)
  have hsignificant : significant u 1 = nearestEven u (spacing u) * spacing u := by
    simp only [significant, Nat.div_one, Nat.one_mul]
  rw [← hsignificant] at hnear
  rcases spacing_le u with hone | hle
  · rw [hone] at hnear
    omega
  · omega

end Rounding

open Rounding

namespace Magnitude

theorem eq_of_units {m k : Magnitude} (h : m.units = k.units) : m = k := by
  cases m
  cases k
  cases h
  rfl

/-- The difference of two magnitudes of which the larger is at most twice the smaller. -/
theorem exists_sub (m k : Magnitude) (hle : m.units ≤ k.units) (htwice : k.units ≤ 2 * m.units) :
    ∃ r : Magnitude, r.units = k.units - m.units := by
  -- Both are multiples of the spacing of `m`, and the difference is no larger than `m`.
  have hspacing : spacing (k.units - m.units) ∣ spacing m.units :=
    spacing_dvd_spacing (by omega)
  have hm := Nat.dvd_trans hspacing m.spacing_dvd
  have hk := Nat.dvd_trans (Nat.dvd_trans hspacing (spacing_dvd_spacing hle)) k.spacing_dvd
  exact ⟨⟨k.units - m.units, Nat.dvd_sub hk hm, Nat.lt_of_le_of_lt (Nat.sub_le ..) k.units_lt⟩, rfl⟩

/-- The remainder of two magnitudes is a magnitude. -/
theorem spacing_dvd_mod (m k : Magnitude) : spacing (m.units % k.units) ∣ m.units % k.units := by
  by_cases hlt : m.units < k.units
  · rw [Nat.mod_eq_of_lt hlt]
    exact m.spacing_dvd
  by_cases hzero : k.units = 0
  · rw [hzero, Nat.mod_zero]
    exact m.spacing_dvd
  -- All three are multiples of the spacing of `k`, and that is a multiple of the remainder's.
  have hmod := Nat.mod_lt m.units (Nat.pos_of_ne_zero hzero)
  have hm : spacing k.units ∣ m.units :=
    Nat.dvd_trans (spacing_dvd_spacing (Nat.not_lt.1 hlt)) m.spacing_dvd
  exact Nat.dvd_trans (spacing_dvd_spacing (Nat.le_of_lt hmod))
    ((Nat.dvd_mod_iff k.spacing_dvd).2 hm)

end Magnitude

namespace Binary64

/-- A finite number in units; zero for the others. -/
def units : Binary64 → Int
  | finite s m => signed s m.units
  | infinite _ | nan => 0

theorem units_positive (m : Magnitude) : (finite false m).units = m.units := rfl

theorem units_negative (m : Magnitude) : (finite true m).units = -m.units := rfl

theorem units_neg (x : Binary64) : (-x).units = -x.units := by
  cases x with
  | finite s m =>
    change signed (!s) m.units = -signed s m.units
    cases s <;> simp [signed]
  | infinite s => rfl
  | nan => rfl

theorem isFinite_neg (x : Binary64) : (-x).isFinite = x.isFinite := by
  cases x <;> rfl

theorem exists_natAbs_units {x : Binary64} (h : x.isFinite = true) :
    ∃ m : Magnitude, m.units = x.units.natAbs := by
  cases x with
  | finite s m => exact ⟨m, (natAbs_signed s m.units).symm⟩
  | infinite s => cases h
  | nan => cases h

theorem WithinTurn.units_nonneg {x : Binary64} (hx : x.WithinTurn) : 0 ≤ x.units := by
  obtain ⟨s, m, rfl, -⟩ := hx.exists_eq
  have hnonneg := hx.nonneg
  rw [zero_eq] at hnonneg
  exact of_decide_eq_true hnonneg

/-! ### One rounding -/

theorem units_zero (negative : Bool) : (zero negative).units = 0 := by
  cases negative <;> rfl

/-- A magnitude is not rounded. -/
theorem exists_ofUnits_eq (negativeZero : Bool) {u : Int} {m : Magnitude}
    (hm : m.units = u.natAbs) :
    ∃ s, ofUnits negativeZero u = finite s m ∧ signed s m.units = u := by
  by_cases hu : u = 0
  · have hzero : m = .zero := Magnitude.eq_of_units (by rw [hm, hu]; rfl)
    rw [ofUnits, if_pos hu, hu, hzero]
    exact ⟨negativeZero, rfl, units_zero negativeZero⟩
  · refine ⟨decide (u < 0), ?_, ?_⟩
    · rw [ofUnits, if_neg hu, ← hm, ofQuotient_of_some m.ofQuotient?_units]
    · rw [hm]
      cases hneg : decide (u < 0) with
      | true =>
        have := of_decide_eq_true hneg
        simp only [signed, if_true]
        omega
      | false =>
        have := of_decide_eq_false hneg
        simp only [signed, Bool.false_eq_true, if_false]
        omega

theorem exists_of_isFinite {negative : Bool} {num den : Nat}
    (h : (ofQuotient negative num den).isFinite = true) :
    ∃ m : Magnitude, ofQuotient negative num den = finite negative m ∧
      m.units = significant num den := by
  rcases Nat.lt_or_ge (significant num den) Magnitude.limit with hlt | hge
  · exact ofQuotient_of_lt hlt negative
  · have hnone : Magnitude.ofQuotient? num den = none := dif_neg (Nat.not_lt.2 hge)
    unfold ofQuotient at h
    generalize Magnitude.ofQuotient? num den = rounded at h hnone
    rw [hnone] at h
    cases h

/-- A whole number of units is rounded by at most one part in `2 ^ 53`. -/
theorem units_ofUnits_near {negativeZero : Bool} {u : Int}
    (h : (ofUnits negativeZero u).isFinite = true) :
    2 ^ (53 : Nat) * ((ofUnits negativeZero u).units - u).natAbs ≤ u.natAbs := by
  by_cases hu : u = 0
  · rw [ofUnits, if_pos hu, units_zero, hu]
    exact Nat.le_refl _
  rw [ofUnits, if_neg hu] at h ⊢
  obtain ⟨m, hm, hunits⟩ := exists_of_isFinite h
  have hnear := significant_near u.natAbs
  rw [hm, units, hunits]
  cases hneg : decide (u < 0) with
  | true =>
    have := of_decide_eq_true hneg
    simp only [signed, if_true]
    omega
  | false =>
    have := of_decide_eq_false hneg
    simp only [signed, Bool.false_eq_true, if_false]
    omega

/-! ### Sums and differences -/

theorem exists_add_eq {x y : Binary64} (hx : x.isFinite = true) (hy : y.isFinite = true) :
    ∃ negativeZero, x + y = ofUnits negativeZero (x.units + y.units) := by
  cases x with
  | infinite s => cases hx
  | nan => cases hx
  | finite s m =>
    cases y with
    | infinite s => cases hy
    | nan => cases hy
    | finite t k => exact ⟨s && t, rfl⟩

/-- A sum is off by at most one part in `2 ^ 53`. -/
theorem units_add_near {x y : Binary64} (hx : x.isFinite = true) (hy : y.isFinite = true)
    (hsum : (x + y).isFinite = true) :
    2 ^ (53 : Nat) * ((x + y).units - (x.units + y.units)).natAbs ≤
      (x.units + y.units).natAbs := by
  obtain ⟨negativeZero, heq⟩ := exists_add_eq hx hy
  rw [heq] at hsum ⊢
  exact units_ofUnits_near hsum

theorem units_sub_near {x y : Binary64} (hx : x.isFinite = true) (hy : y.isFinite = true)
    (hdifference : (x - y).isFinite = true) :
    2 ^ (53 : Nat) * ((x - y).units - (x.units - y.units)).natAbs ≤
      (x.units - y.units).natAbs := by
  have hnear := units_add_near hx ((isFinite_neg y).trans hy) hdifference
  rwa [units_neg, ← Int.sub_eq_add_neg] at hnear

theorem WithinTurn.natAbs_units_le {x : Binary64} (hx : x.WithinTurn) :
    x.units.natAbs ≤ Magnitude.turn.units := by
  obtain ⟨s, m, rfl, hm⟩ := hx.exists_eq
  rwa [units, natAbs_signed]

/-- The way by a difference leads close to its end. -/
theorem add_sub_near {x y : Binary64} (hx : x.WithinTurn) (hy : y.isFinite = true) :
    2 ^ (51 : Nat) * ((x + (y - x)).units - y.units).natAbs ≤
      max y.units.natAbs Magnitude.turn.units := by
  have hdifference := hx.isFinite_sub hy
  have hnear := units_sub_near hy hx.isFinite hdifference
  have hnear' := units_add_near hx.isFinite hdifference (hx.isFinite_add hdifference)
  have hle := hx.natAbs_units_le
  have hy_le := Nat.le_max_left y.units.natAbs Magnitude.turn.units
  have hturn_le := Nat.le_max_right y.units.natAbs Magnitude.turn.units
  generalize max y.units.natAbs Magnitude.turn.units = bound at *
  generalize Magnitude.turn.units = t at *
  -- The difference is at most twice the bound, and the sum is the target up to one rounding.
  have hspan : (y.units - x.units).natAbs ≤ 2 * bound := by omega
  omega

/-! ### Exact differences -/

/-- The difference of the two is a number itself. -/
def ExactDifference (x y : Binary64) : Prop :=
  ∃ m : Magnitude, m.units = (y.units - x.units).natAbs

/-- Of two numbers of one sign of which neither is more than twice the other the difference is a
number. -/
theorem exactDifference_of_le {x y : Binary64} (hx : x.isFinite = true) (hy : y.isFinite = true)
    (hxy : x.units ≤ 2 * y.units) (hyx : y.units ≤ 2 * x.units) : ExactDifference x y := by
  obtain ⟨m, hm⟩ := exists_natAbs_units hx
  obtain ⟨k, hk⟩ := exists_natAbs_units hy
  rcases Int.le_total x.units y.units with hle | hle
  · obtain ⟨r, hr⟩ := m.exists_sub k (by omega) (by omega)
    exact ⟨r, by omega⟩
  · obtain ⟨r, hr⟩ := k.exists_sub m (by omega) (by omega)
    exact ⟨r, by omega⟩

/-- The way from zero and back ends at the positive zero, for opposite numbers add up to that. -/
theorem WithinTurn.add_zero_sub {x : Binary64} (hx : x.WithinTurn) :
    x + (zero false - x) = zero false := by
  obtain ⟨s, m, rfl, -⟩ := hx.exists_eq
  cases s with
  | true =>
    have hzero : m.units = 0 := by
      have hnonneg := hx.units_nonneg
      rw [units_negative] at hnonneg
      omega
    obtain rfl : m = .zero := Magnitude.eq_of_units hzero
    rfl
  | false =>
    obtain ⟨s, hs, hsigned⟩ := exists_ofUnits_eq false (u := -m.units) (m := m) (by omega)
    have hway : zero false - finite false m = ofUnits false (0 + -m.units) := rfl
    have hback : finite false m + finite s m = ofUnits false (m.units + signed s m.units) := rfl
    rw [hway, Int.zero_add, hs, hback, hsigned, Int.add_right_neg]
    rfl

/-- If the difference is a number, then the way by it leads to its end.  Only a negative zero is
missed. -/
theorem add_sub_eq {x y : Binary64} (hx : x.WithinTurn) (hy : y.isFinite = true)
    (hzero : y ≠ zero true) (hexact : ExactDifference x y) : x + (y - x) = y := by
  obtain ⟨m, hm⟩ := hexact
  cases y with
  | infinite t => cases hy
  | nan => cases hy
  | finite t k =>
    by_cases hk : k.units = 0
    · obtain rfl : k = .zero := Magnitude.eq_of_units hk
      cases t with
      | false => exact hx.add_zero_sub
      | true => exact absurd rfl hzero
    · obtain ⟨_, hway⟩ := exists_add_eq hy ((isFinite_neg x).trans hx.isFinite)
      rw [units_neg, ← Int.sub_eq_add_neg] at hway
      obtain ⟨s, hs, hunits⟩ := exists_ofUnits_eq _ hm
      obtain ⟨negativeZero, hsum⟩ := exists_add_eq hx.isFinite (y := finite s m) rfl
      have htotal : x.units + (finite s m).units = signed t k.units := by
        change x.units + signed s m.units = signed t k.units
        rw [hunits]
        change x.units + (signed t k.units - x.units) = signed t k.units
        omega
      obtain ⟨r, hr, hsigned⟩ :=
        exists_ofUnits_eq negativeZero (m := k) (natAbs_signed t k.units).symm
      change x + (finite t k + -x) = _
      rw [hway, hs, hsum, htotal, hr]
      cases r <;> cases t <;> simp only [signed] at hsigned ⊢ <;> simp at hsigned ⊢ <;> omega

/-! ### The remainder by a turn -/

/-- The remainder of a finite number by a turn is not rounded. -/
theorem exists_rem_turn_eq (s : Bool) (m : Magnitude) :
    ∃ r : Magnitude, r.units = m.units % Magnitude.turn.units ∧
      (finite s m).rem .turn = finite s r := by
  have hpos : 0 < Magnitude.turn.units := by decide +kernel
  have hmod := Nat.mod_lt m.units hpos
  let r : Magnitude := ⟨m.units % Magnitude.turn.units, m.spacing_dvd_mod .turn,
    Nat.lt_trans hmod Magnitude.turn.units_lt⟩
  refine ⟨r, rfl, ?_⟩
  rw [turn_eq, rem, if_neg (Nat.ne_of_gt hpos), ← ofQuotient_of_some r.ofQuotient?_units]

/-- Bringing a number into one turn takes whole turns away from it or adds them, and rounds at most
once. -/
theorem wrap_near {x : Binary64} (hx : x.isFinite = true) :
    ∃ turns : Int, 2 ^ (53 : Nat) *
      ((x.wrap .turn).units - (x.units + turns * Magnitude.turn.units)).natAbs ≤
        Magnitude.turn.units := by
  have hwrap := WithinTurn.wrap hx
  cases x with
  | infinite s => cases hx
  | nan => cases hx
  | finite s m =>
    obtain ⟨r, hr, hrem⟩ := exists_rem_turn_eq s m
    have hdiv := Nat.div_add_mod' m.units Magnitude.turn.units
    rw [← hr] at hdiv
    have hwrapped : (finite s m).wrap .turn =
        if finite s r < 0 then finite s r + turn.abs else finite s r := by
      simp only [Binary64.wrap, hrem]
    rw [hwrapped] at hwrap ⊢
    by_cases hneg : finite s r < 0
    · -- A negative remainder is brought up by one more turn, and that sum is rounded.
      obtain ⟨rfl, -⟩ := finite_lt_zero_iff.1 hneg
      have hsum : finite true r + turn.abs =
          ofUnits false (-r.units + Magnitude.turn.units) := by
        rw [turn_eq]
        rfl
      rw [if_pos hneg, hsum] at hwrap ⊢
      have hnear := units_ofUnits_near hwrap.isFinite
      have hpos : r.units ≤ Magnitude.turn.units := by
        rw [hr]
        exact Nat.le_of_lt (Nat.mod_lt _ (by decide +kernel))
      refine ⟨((m.units / Magnitude.turn.units + 1 : Nat) : Int), ?_⟩
      rw [← Int.natCast_mul, Nat.succ_mul (m.units / Magnitude.turn.units), units_negative]
      generalize m.units / Magnitude.turn.units * Magnitude.turn.units = p at *
      generalize Magnitude.turn.units = t at *
      omega
    · rw [if_neg hneg]
      rw [finite_lt_zero_iff] at hneg
      cases s with
      | false =>
        refine ⟨-((m.units / Magnitude.turn.units : Nat) : Int), ?_⟩
        rw [Int.neg_mul, ← Int.natCast_mul, units_positive, units_positive]
        generalize m.units / Magnitude.turn.units * Magnitude.turn.units = p at *
        omega
      | true =>
        have hzero : r.units = 0 := by simpa using hneg
        refine ⟨((m.units / Magnitude.turn.units : Nat) : Int), ?_⟩
        rw [← Int.natCast_mul, units_negative, units_negative]
        generalize m.units / Magnitude.turn.units * Magnitude.turn.units = p at *
        omega

/-- Up to whole turns the two angles differ by at most one part in `2 ^ 50` of the target, or of a
turn if that is larger. -/
def NearInTurns (target x y : Binary64) : Prop :=
  ∃ turns : Int, 2 ^ (50 : Nat) * (x.units + turns * Magnitude.turn.units - y.units).natAbs ≤
    max target.units.natAbs Magnitude.turn.units

/-- An angle that is reached by a difference is, in one turn, close to its target. -/
theorem nearInTurns_wrap {x y : Binary64} (hx : x.WithinTurn) (hy : y.isFinite = true) :
    NearInTurns y ((x + (y - x)).wrap .turn) (y.wrap .turn) := by
  have hnear := add_sub_near hx hy
  obtain ⟨j, hj⟩ := wrap_near (hx.isFinite_add (hx.isFinite_sub hy))
  obtain ⟨k, hk⟩ := wrap_near hy
  have hturn_le := Nat.le_max_right y.units.natAbs Magnitude.turn.units
  refine ⟨k - j, ?_⟩
  rw [Int.sub_mul]
  generalize max y.units.natAbs Magnitude.turn.units = bound at *
  generalize k * (Magnitude.turn.units : Int) = kt, j * (Magnitude.turn.units : Int) = jt at *
  generalize Magnitude.turn.units = t at *
  omega

end Binary64

end QuantumCircuit

import QuantumCircuit.Number.Binary64

/-!
# Angles within one turn

Where the arithmetic of angles leads.  Rounding does not step over a number of 53 significant bits
(`Rounding.significant_le`), so the remainder by a full turn is a number from zero to a full turn,
whatever finite number it is taken of (`Binary64.WithinTurn.wrap`), and NaN otherwise
(`Binary64.wrap_eq_nan`).  An angle within one turn is so small that adding it to a finite number
does not leave the finite numbers (`Binary64.isFinite_add_finite`).
-/

namespace QuantumCircuit

-- Powers with natural exponents are those of the core library, whatever else is imported.
attribute [local instance (2000)] instPowNat

namespace Rounding

theorem spacing_dvd_spacing {u v : Nat} (h : u ≤ v) : spacing u ∣ spacing v := by
  refine Nat.pow_dvd_pow 2 (Nat.sub_le_sub_right ?_ 52)
  by_cases hu : u = 0
  · simp [hu]
  · exact (Nat.le_log2 (by omega)).2 (Nat.le_trans (Nat.log2_self_le hu) h)

/-- Rounding a whole number goes down to the grid around it, or up from the upper half of a step. -/
theorem significant_one (u : Nat) :
    significant u 1 = u / spacing u * spacing u ∨
      spacing u ≤ 2 * (u % spacing u) ∧
        significant u 1 = u / spacing u * spacing u + spacing u := by
  simp only [significant, Nat.div_one, Nat.one_mul, nearestEven]
  split
  · exact .inl rfl
  · exact .inr ⟨by omega, Nat.succ_mul _ _⟩

/-- A grid point above `u` is not below the first one above it. -/
theorem div_mul_add_le_of_dvd {s u v : Nat} (h : u < v) (hv : s ∣ v) : u / s * s + s ≤ v := by
  obtain ⟨k, rfl⟩ := hv
  rw [← Nat.succ_mul, Nat.mul_comm]
  exact Nat.mul_le_mul_left s (Nat.div_lt_of_lt_mul h)

/-- Rounding does not step over a number of at most 53 significant bits. -/
theorem significant_le {u v : Nat} (huv : u ≤ v) (hv : spacing v ∣ v) : significant u 1 ≤ v := by
  have hgrid : spacing u ∣ v := Nat.dvd_trans (spacing_dvd_spacing huv) hv
  have hu := Nat.div_add_mod' u (spacing u)
  rcases significant_one u with heq | ⟨hrest, heq⟩ <;> rw [heq]
  · omega
  · refine div_mul_add_le_of_dvd (Nat.lt_of_le_of_ne huv ?_) hgrid
    rintro rfl
    have hpos := spacing_pos u
    have hmod := Nat.mod_eq_zero_of_dvd hv
    omega

/-- In one binade the spacing is the same. -/
theorem spacing_eq {u e : Nat} (h : 2 ^ (52 + e) ≤ u) (h' : u < 2 ^ (53 + e)) :
    spacing u = 2 ^ e := by
  have hu : u ≠ 0 := by
    rintro rfl
    have := Nat.two_pow_pos (52 + e)
    omega
  have hlow := (Nat.le_log2 hu).2 h
  have hhigh := (Nat.log2_lt hu).2 h'
  rw [spacing, show u.log2 - 52 = e by omega]

end Rounding

open Rounding

namespace Magnitude

/-- The distance between the largest magnitudes. -/
def topStep : Nat := 2 ^ (2045 : Nat)

theorem topStep_pos : 0 < topStep := by simp only [topStep, Nat.two_pow_pos]

theorem limit_eq : limit = 2 ^ (53 : Nat) * topStep := by
  simp only [limit, topStep, ← Nat.pow_add, Nat.reduceAdd]

theorem topStep_dvd_limit : topStep ∣ limit := ⟨2 ^ (53 : Nat), by rw [limit_eq, Nat.mul_comm]⟩

theorem spacing_dvd_topStep {u : Nat} (h : u < limit) : spacing u ∣ topStep := by
  simp only [topStep]
  exact spacing_dvd_of_lt (s := 2045) (by simpa only [limit_eq, topStep, ← Nat.pow_add] using h)

/-- The largest magnitude is a step below the limit. -/
theorem units_add_topStep_le (m : Magnitude) : m.units + topStep ≤ limit := by
  have hlimit := limit_eq
  by_cases hsmall : m.units < 2 ^ (52 : Nat) * topStep
  · omega
  · -- In the topmost binade the grid is that of the largest step.
    have hstep : spacing m.units = topStep := by
      simp only [topStep]
      refine spacing_eq (e := 2045) ?_ ?_
      · simpa only [topStep, ← Nat.pow_add, Nat.not_lt] using hsmall
      · simpa only [limit_eq, topStep, ← Nat.pow_add] using m.units_lt
    obtain ⟨k, hk⟩ := m.spacing_dvd
    rw [hstep, Nat.mul_comm] at hk
    have hlt : k < 2 ^ (53 : Nat) := by
      refine Nat.lt_of_mul_lt_mul_right (a := topStep) ?_
      rw [← hk, ← hlimit]
      exact m.units_lt
    have hmul := Nat.mul_le_mul_right topStep (Nat.succ_le_of_lt hlt)
    rw [Nat.succ_mul] at hmul
    omega

/-- Rounding stays below the limit up to half a step before it. -/
theorem significant_lt_limit {u : Nat} (h : 2 * u + topStep < 2 * limit) :
    significant u 1 < limit := by
  have hu := Nat.div_add_mod' u (spacing u)
  have hmod := Nat.mod_lt u (spacing_pos u)
  rcases significant_one u with heq | ⟨hrest, heq⟩ <;> rw [heq]
  · omega
  · have hstep := spacing_dvd_topStep (u := u) (by omega)
    have hle := Nat.le_of_dvd topStep_pos hstep
    -- The number above `u` on its grid is at most the limit, and the limit itself is too far.
    have hnext := div_mul_add_le_of_dvd (u := u) (by omega) (Nat.dvd_trans hstep topStep_dvd_limit)
    omega

/-- The magnitude of a full turn. -/
def turn : Magnitude := ⟨0x1921FB54442D18 * 2 ^ (1024 : Nat), by decide +kernel, by decide +kernel⟩

/-- A turn is small beside the largest step. -/
theorem turn_units_lt : 2 * turn.units < topStep := by decide +kernel

end Magnitude

namespace Binary64

/-- A finite number from zero to a full turn. -/
structure WithinTurn (x : Binary64) : Prop where
  isFinite : x.isFinite = true
  nonneg : 0 ≤ x
  le_turn : x ≤ turn

theorem turn_eq : turn = finite false .turn := by decide +kernel

theorem zero_eq : (0 : Binary64) = finite false .zero := by decide +kernel

/-! ### Rounded results -/

theorem ofQuotient_of_some {num den : Nat} {m : Magnitude}
    (h : Magnitude.ofQuotient? num den = some m) (negative : Bool) :
    ofQuotient negative num den = finite negative m := by
  unfold ofQuotient
  generalize Magnitude.ofQuotient? num den = rounded at h
  rw [h]

theorem ofQuotient_of_lt {num den : Nat} (h : significant num den < Magnitude.limit)
    (negative : Bool) : ∃ m : Magnitude, ofQuotient negative num den = finite negative m ∧
      m.units = significant num den :=
  ⟨⟨significant num den, spacing_dvd_significant num den, h⟩, ofQuotient_of_some (dif_pos h) _, rfl⟩

/-- Rounding a whole number of units below a magnitude leads to a magnitude below it. -/
theorem ofQuotient_of_le {u : Nat} {k : Magnitude} (h : u ≤ k.units) (negative : Bool) :
    ∃ m : Magnitude, ofQuotient negative u 1 = finite negative m ∧ m.units ≤ k.units := by
  have hle := significant_le h k.spacing_dvd
  obtain ⟨m, hm, hunits⟩ := ofQuotient_of_lt (Nat.lt_of_le_of_lt hle k.units_lt) negative
  exact ⟨m, hm, by rwa [hunits]⟩

theorem isFinite_ofUnits {u : Int} (h : 2 * u.natAbs + Magnitude.topStep < 2 * Magnitude.limit)
    (negativeZero : Bool) : (ofUnits negativeZero u).isFinite = true := by
  obtain ⟨m, hm, -⟩ := ofQuotient_of_lt (Magnitude.significant_lt_limit h) (decide (u < 0))
  rw [ofUnits, hm]
  split <;> rfl

theorem natAbs_signed (negative : Bool) (u : Nat) : (signed negative u).natAbs = u := by
  cases negative <;> simp [signed]

/-- The sum of two finite numbers is finite if one of them is at most a turn in size. -/
theorem isFinite_add_finite {s t : Bool} {m k : Magnitude} (h : m.units ≤ Magnitude.turn.units) :
    (finite s m + finite t k).isFinite = true ∧ (finite t k + finite s m).isFinite = true := by
  have hk := k.units_add_topStep_le
  have hturn := Magnitude.turn_units_lt
  have hm := natAbs_signed s m.units
  have hk' := natAbs_signed t k.units
  constructor <;> refine isFinite_ofUnits ?_ _ <;> omega

/-! ### Numbers within a turn -/

theorem withinTurn_finite {s : Bool} {m : Magnitude} (hs : s = false ∨ m.units = 0)
    (hm : m.units ≤ Magnitude.turn.units) : (finite s m).WithinTurn := by
  have hsigned : signed s m.units = m.units := by
    rcases hs with rfl | hzero
    · rfl
    · simp [hzero, signed]
  refine ⟨rfl, ?_, ?_⟩
  · rw [zero_eq]
    exact decide_eq_true (by rw [hsigned]; exact Int.natCast_nonneg _)
  · rw [turn_eq]
    exact decide_eq_true (by rw [hsigned]; exact Int.ofNat_le.2 hm)

theorem WithinTurn.exists_eq {x : Binary64} (h : x.WithinTurn) :
    ∃ s m, x = finite s m ∧ m.units ≤ Magnitude.turn.units := by
  obtain ⟨hfinite, hnonneg, hle⟩ := h
  cases x with
  | infinite s => cases hfinite
  | nan => cases hfinite
  | finite s m =>
    refine ⟨s, m, rfl, ?_⟩
    rw [zero_eq] at hnonneg
    rw [turn_eq] at hle
    have hpos : (0 : Int) ≤ signed s m.units := of_decide_eq_true hnonneg
    have hbound : signed s m.units ≤ Magnitude.turn.units := of_decide_eq_true hle
    have := natAbs_signed s m.units
    omega

/-- The sum of an angle within a turn and a finite number is finite. -/
theorem WithinTurn.isFinite_add {x y : Binary64} (hx : x.WithinTurn) (hy : y.isFinite = true) :
    (x + y).isFinite = true := by
  obtain ⟨s, m, rfl, hm⟩ := hx.exists_eq
  cases y with
  | finite t k => exact (isFinite_add_finite hm).1
  | infinite t => cases hy
  | nan => cases hy

/-- The way from an angle within a turn to a finite number is finite. -/
theorem WithinTurn.isFinite_sub {x y : Binary64} (hx : x.WithinTurn) (hy : y.isFinite = true) :
    (y - x).isFinite = true := by
  obtain ⟨s, m, rfl, hm⟩ := hx.exists_eq
  cases y with
  | finite t k => exact (isFinite_add_finite hm).2
  | infinite t => cases hy
  | nan => cases hy

theorem finite_lt_zero_iff {s : Bool} {m : Magnitude} :
    finite s m < 0 ↔ s = true ∧ m.units ≠ 0 := by
  have hlt : finite s m < 0 ↔ signed s m.units < 0 := by
    rw [zero_eq]
    exact decide_eq_true_iff
  rw [hlt]
  cases s with
  | false => simp [signed]
  | true =>
    have hneg : signed true m.units = -m.units := rfl
    rw [hneg]
    simp only [true_and]
    omega

theorem withinTurn_ofUnits {u : Nat} (h : u ≤ Magnitude.turn.units) :
    (ofUnits false u).WithinTurn := by
  obtain ⟨m, hm, hle⟩ := ofQuotient_of_le h false
  have hsign : decide ((u : Int) < 0) = false := decide_eq_false (by omega)
  rw [ofUnits, hsign, Int.natAbs_natCast, hm]
  split
  · exact withinTurn_finite (.inl rfl) (Nat.zero_le _)
  · exact withinTurn_finite (.inl rfl) hle

theorem withinTurn_pi : pi.WithinTurn := by
  constructor <;> decide +kernel

/-- A finite number is brought into one turn. -/
theorem WithinTurn.wrap {x : Binary64} (h : x.isFinite = true) : (x.wrap .turn).WithinTurn := by
  cases x with
  | infinite s => cases h
  | nan => cases h
  | finite s m =>
    have hpos : 0 < Magnitude.turn.units := by decide +kernel
    obtain ⟨r, hr, hle⟩ := ofQuotient_of_le (Nat.le_of_lt (Nat.mod_lt m.units hpos)) s
    have hrem : (finite s m).rem .turn = finite s r := by
      rw [turn_eq, rem, if_neg (Nat.ne_of_gt hpos), hr]
    simp only [Binary64.wrap, hrem]
    split
    case isTrue hneg =>
      -- Only a negative remainder is brought up, and it is at most a turn in size.
      obtain ⟨rfl, -⟩ := finite_lt_zero_iff.1 hneg
      have hsum : signed true r.units + signed false Magnitude.turn.units =
          (Magnitude.turn.units - r.units : Nat) := by
        simp only [signed, if_true, Bool.false_eq_true, if_false]
        omega
      rw [turn_eq]
      change (ofUnits false (signed true r.units + signed false Magnitude.turn.units)).WithinTurn
      rw [hsum]
      exact withinTurn_ofUnits (Nat.sub_le _ _)
    case isFalse hneg =>
      refine withinTurn_finite ?_ hle
      rw [finite_lt_zero_iff] at hneg
      cases s <;> simp_all

theorem wrap_eq_nan {x : Binary64} (h : x.isFinite = false) : x.wrap .turn = .nan := by
  cases x with
  | finite s m => cases h
  | infinite s => rw [turn_eq]; rfl
  | nan => rw [turn_eq]; rfl

end Binary64

end QuantumCircuit

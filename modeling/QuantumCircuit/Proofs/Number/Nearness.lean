import Mathlib.Tactic.ByContra
import QuantumCircuit.Proofs.Number.ReadBack

/-!
# One rounding

How far one operation is off its exact result, in units.  `Rounding.Near` is the relative error of
one rounding, and a quotient has it as soon as it is not among the smallest numbers
(`Rounding.near_significant`).  So products and quotients of finite numbers are near the exact
ones, and rounding to a whole number is exact (`Magnitude.exists_round`).
-/

namespace QuantumCircuit

-- Powers with natural exponents are those of the core library, whatever else is imported.
attribute [local instance (2000)] instPowNat

namespace Rounding

variable {bits a b num den : Nat}

/-- `a` is off `b` by at most one part in `2 ^ bits`. -/
structure Near (bits a b : Nat) : Prop where
  le : 2 ^ bits * a ≤ 2 ^ bits * b + b
  ge : 2 ^ bits * b ≤ 2 ^ bits * a + b

theorem Near.refl (bits a : Nat) : Near bits a a := ⟨Nat.le_add_right .., Nat.le_add_right ..⟩

theorem Near.mul_right (h : Near bits a b) (k : Nat) : Near bits (a * k) (b * k) where
  le := by
    have hle := Nat.mul_le_mul_right k h.le
    rwa [Nat.add_mul, Nat.mul_assoc, Nat.mul_assoc] at hle
  ge := by
    have hge := Nat.mul_le_mul_right k h.ge
    rwa [Nat.add_mul, Nat.mul_assoc, Nat.mul_assoc] at hge

/-- A rounded quotient is near the exact one, unless its spacing is that of the whole numbers. -/
theorem near_significant (hden : 0 < den) (h : 2 ^ (52 : Nat) * den ≤ num) :
    Near 53 (significant num den * den) num := by
  obtain ⟨hle, hge⟩ := nearestEven_near num (Nat.mul_pos hden (spacing_pos (num / den)))
  have hproduct : significant num den * den =
      nearestEven num (den * spacing (num / den)) * (den * spacing (num / den)) := by
    rw [significant, Nat.mul_assoc, Nat.mul_comm (spacing _) den]
  rw [← hproduct] at hle hge
  have hdiv := Nat.div_mul_le_self num den
  -- A step of the grid is one part in `2 ^ 52` of the quotient.
  have hstep : 2 ^ (52 : Nat) * (den * spacing (num / den)) ≤ num := by
    rcases spacing_le (num / den) with hone | hle
    · rwa [hone, Nat.mul_one]
    · calc 2 ^ (52 : Nat) * (den * spacing (num / den))
          = 2 ^ (52 : Nat) * spacing (num / den) * den := by
            rw [Nat.mul_comm den, Nat.mul_assoc]
        _ ≤ num / den * den := Nat.mul_le_mul_right den hle
        _ ≤ num := hdiv
  generalize den * spacing (num / den) = step at *
  generalize significant num den * den = product at *
  constructor <;> omega

/-- The quotient of a rounded quotient is not among the smallest numbers if that is not. -/
theorem mul_le_of_le_significant (h : 2 ^ (53 : Nat) ≤ significant num den) :
    2 ^ (52 : Nat) * den ≤ num := by
  by_contra hlt
  have hdiv : num / den < 2 ^ (52 : Nat) := by
    rcases Nat.eq_zero_or_pos den with rfl | hden
    · simp
    · exact (Nat.div_lt_iff_lt_mul hden).2 (Nat.not_le.1 hlt)
  have hspacing : spacing (num / den) = 1 :=
    Nat.dvd_one.1 (spacing_dvd_of_lt (s := 0) (Nat.lt_trans hdiv (by decide)))
  have hle := nearestEven_le num den
  rw [significant, hspacing, Nat.mul_one, Nat.mul_one] at h
  omega

/-- A number of at most 53 significant bits that is not above `u` is not above the grid point below
`u`. -/
theorem le_gridBelow {u v : Nat} (h : v ≤ u) (hv : spacing v ∣ v) :
    v ≤ u / spacing u * spacing u := by
  rcases Nat.eq_zero_or_pos v with rfl | hpos
  · exact Nat.zero_le _
  have hlog : v.log2 ≤ u.log2 :=
    (Nat.le_log2 (by omega)).2 (Nat.le_trans (Nat.log2_self_le (by omega)) h)
  rcases Nat.eq_or_lt_of_le hlog with heq | hlt
  · -- in the same binade both have the same grid
    refine le_div_mul_of_dvd ?_ h
    rwa [spacing, ← heq, ← spacing]
  · have hbinade : spacing u ∣ 2 ^ u.log2 := Nat.pow_dvd_pow 2 (Nat.sub_le ..)
    calc v
      _ ≤ 2 ^ (v.log2 + 1) := Nat.le_of_lt Nat.lt_log2_self
      _ ≤ 2 ^ u.log2 := Nat.pow_le_pow_right Nat.two_pos hlt
      _ ≤ u / spacing u * spacing u := le_div_mul_of_dvd hbinade (Nat.log2_self_le (by omega))

/-- No number of at most 53 significant bits is nearer to a whole number than its rounding. -/
theorem significant_nearest (u : Nat) {v : Nat} (hv : spacing v ∣ v) :
    ((significant u 1 : Int) - u).natAbs ≤ ((v : Int) - u).natAbs := by
  have hnear := nearestEven_near u (spacing_pos u)
  have hsignificant : significant u 1 = nearestEven u (spacing u) * spacing u := by
    simp only [significant, Nat.div_one, Nat.one_mul]
  rw [← hsignificant] at hnear
  have hbelow := Nat.div_mul_le_self u (spacing u)
  have habove : u < u / spacing u * spacing u + spacing u := Nat.lt_div_mul_add (spacing_pos u)
  rcases Nat.lt_or_ge u v with hlt | hge
  · have hv := div_mul_add_le_of_dvd hlt
      (Nat.dvd_trans (spacing_dvd_spacing (Nat.le_of_lt hlt)) hv)
    rcases significant_one u with heq | ⟨-, heq⟩ <;> omega
  · have hv := le_gridBelow hge hv
    rcases significant_one u with heq | ⟨-, heq⟩ <;> omega

/-- A rounded whole number is near the exact one. -/
theorem near_significant_one (u : Nat) : Near 53 (significant u 1) u := by
  have hnear := significant_near u
  constructor <;> omega

end Rounding

open Rounding

namespace Magnitude

/-- The magnitude of π. -/
def pi : Magnitude := ⟨0x1921FB54442D18 * 2 ^ (1023 : Nat), by decide +kernel, by decide +kernel⟩

theorem three_mul_one_le : 3 * one ≤ pi.units := by decide +kernel

theorem five_mul_pi_le : 5 * pi.units ≤ 16 * one := by decide +kernel

theorem two_pow_le_one : 2 ^ (64 : Nat) ≤ one := by decide +kernel

theorem pi_pos : 0 < pi.units := by decide +kernel

theorem two_pow_mul_pi_le : 2 ^ (70 : Nat) * pi.units ≤ limit := by decide +kernel

/-- The whole number nearest to a magnitude, a half going up. -/
def nearestWhole (m : Magnitude) : Nat := (2 * m.units + one) / (2 * one)

theorem nearestWhole_near (m : Magnitude) :
    2 * (m.nearestWhole * one) ≤ 2 * m.units + one ∧
      2 * m.units ≤ 2 * (m.nearestWhole * one) + one := by
  have hone := one_pos
  have hdiv := Nat.div_add_mod' (2 * m.units + one) (2 * one)
  have hmod := Nat.mod_lt (2 * m.units + one) (Nat.mul_pos Nat.two_pos hone)
  have hproduct : m.nearestWhole * (2 * one) = 2 * (m.nearestWhole * one) := by
    rw [Nat.mul_left_comm]
  rw [nearestWhole] at *
  omega

/-- A magnitude of whole numbers is its nearest whole number. -/
theorem nearestWhole_eq {m : Magnitude} (h : one ∣ m.units) : m.nearestWhole * one = m.units := by
  obtain ⟨k, hk⟩ := h
  have hone := one_pos
  have hlow : k * (2 * one) = 2 * (one * k) := by rw [Nat.mul_comm k, Nat.mul_assoc]
  have hhigh : (k + 1) * (2 * one) = 2 * (one * k) + 2 * one := by rw [Nat.succ_mul, hlow]
  have hwhole : m.nearestWhole = k := by
    rw [nearestWhole, hk]
    exact Nat.div_eq_of_lt_le (by omega) (by omega)
  rw [hwhole, hk, Nat.mul_comm]

/-- One and the limit as powers of two whose exponents are not evaluated. -/
theorem exists_two_pow : ∃ e l : Nat, one = 2 ^ e ∧ limit = 2 ^ l ∧ 53 + e ≤ l := by
  refine ⟨1074, 2098, ?_, ?_, by decide⟩
  · rw [one]
  · rw [limit]

/-- From `2 ^ 52` on all magnitudes are whole numbers. -/
theorem one_dvd_units {m : Magnitude} (h : 2 ^ (52 : Nat) * one ≤ m.units) : one ∣ m.units := by
  refine Nat.dvd_trans ?_ m.spacing_dvd
  obtain ⟨e, -, he, -⟩ := exists_two_pow
  have hne : m.units ≠ 0 := by
    have := one_pos
    omega
  rw [he, ← Nat.pow_add] at h
  have hlog := (Nat.le_log2 hne).2 h
  rw [he, spacing]
  exact Nat.pow_dvd_pow 2 (by omega)

/-- Whole numbers of at most 53 bits are magnitudes. -/
theorem exists_mul_one {k : Nat} (h : k < 2 ^ (53 : Nat)) :
    ∃ m : Magnitude, m.units = k * one := by
  obtain ⟨e, l, he, hl, hle⟩ := exists_two_pow
  have hlt : k * one < 2 ^ (53 + e) := by
    rw [he, Nat.pow_add]
    exact Nat.mul_lt_mul_of_pos_right h (Nat.two_pow_pos e)
  have hdvd : spacing (k * one) ∣ 2 ^ e := spacing_dvd_of_lt hlt
  rw [← he] at hdvd
  refine ⟨⟨k * one, Nat.dvd_trans hdvd (Nat.dvd_mul_left one k), ?_⟩, rfl⟩
  rw [hl]
  exact Nat.lt_of_lt_of_le hlt (Nat.pow_le_pow_right Nat.two_pos hle)

/-- Rounding to a whole number is exact. -/
theorem exists_round (s : Bool) (m : Magnitude) :
    ∃ r : Magnitude, (Binary64.finite s m).round = .finite s r ∧
      r.units = m.nearestWhole * one := by
  have hmagnitude : ∃ r : Magnitude, r.units = m.nearestWhole * one := by
    by_cases hlarge : 2 ^ (52 : Nat) * one ≤ m.units
    · exact ⟨m, (nearestWhole_eq (one_dvd_units hlarge)).symm⟩
    · refine exists_mul_one (Nat.lt_of_mul_lt_mul_right (a := one) ?_)
      have hle := m.nearestWhole_near.1
      have hone := one_pos
      omega
  obtain ⟨r, hr⟩ := hmagnitude
  refine ⟨r, ?_, hr⟩
  have hround : (Binary64.finite s m).round = .ofQuotient s (m.nearestWhole * one) 1 := rfl
  rw [hround, ← hr, Binary64.ofQuotient_of_some r.ofQuotient?_units]

end Magnitude

namespace Binary64

variable {m : Magnitude} {k : Nat}

theorem finite_mul_finite (s t : Bool) (m k : Magnitude) :
    finite s m * finite t k = ofQuotient (s != t) (m.units * k.units) Magnitude.one := by
  change mul _ _ = _
  rw [mul]

theorem finite_div_finite (s t : Bool) (m : Magnitude) {k : Magnitude} (hk : 0 < k.units) :
    finite s m / finite t k = ofQuotient (s != t) (m.units * Magnitude.one) k.units := by
  change div _ _ = _
  rw [div, if_neg (Nat.ne_of_gt hk)]

theorem pi_eq : pi = finite false .pi := by decide +kernel

/-- Whole numbers of at most 53 bits are not rounded. -/
theorem exists_ofNat_eq (h : k < 2 ^ (53 : Nat)) :
    ∃ c : Magnitude, ofNat k = finite false c ∧ c.units = k * Magnitude.one := by
  obtain ⟨c, hc⟩ := Magnitude.exists_mul_one h
  refine ⟨c, ?_, hc⟩
  rw [ofNat, ← hc, ofQuotient_of_some c.ofQuotient?_units]

/-- Whole numbers of 64 bits are rounded to a nearest magnitude. -/
theorem exists_ofNat_nearest (h : k ≤ 2 ^ (64 : Nat)) :
    ∃ c : Magnitude, ofNat k = finite false c ∧ ∀ c' : Magnitude,
      ((c.units : Int) - k * Magnitude.one).natAbs ≤
        ((c'.units : Int) - k * Magnitude.one).natAbs := by
  have hlarge : 2 * (2 ^ (64 : Nat) * Magnitude.one) + Magnitude.topStep < 2 * Magnitude.limit := by
    decide +kernel
  have hle := Nat.mul_le_mul_right Magnitude.one h
  obtain ⟨c, hc, hunits⟩ := ofQuotient_of_lt
    (Magnitude.significant_lt_limit (u := k * Magnitude.one) (by omega)) false
  refine ⟨c, hc, fun c' => ?_⟩
  rw [hunits]
  exact_mod_cast significant_nearest (k * Magnitude.one) c'.spacing_dvd

theorem finite_mul_ofNat (s : Bool) (m : Magnitude) (h : k < 2 ^ (53 : Nat)) :
    finite s m * ofNat k = ofQuotient s (m.units * k) 1 := by
  obtain ⟨c, hc, hunits⟩ := exists_ofNat_eq h
  rw [hc, finite_mul_finite, hunits, Bool.bne_false]
  refine ofQuotient_congr Magnitude.one_pos Nat.one_pos ?_ s
  rw [Nat.mul_one, Nat.mul_assoc]

theorem finite_div_ofNat (s : Bool) (m : Magnitude) (hk : 0 < k) (h : k < 2 ^ (53 : Nat)) :
    finite s m / ofNat k = ofQuotient s m.units k := by
  obtain ⟨c, hc, hunits⟩ := exists_ofNat_eq h
  have hpos : 0 < k * Magnitude.one := Nat.mul_pos hk Magnitude.one_pos
  rw [hc, finite_div_finite s false m (hunits ▸ hpos), hunits, Bool.bne_false]
  refine ofQuotient_congr hpos hk ?_ s
  rw [Nat.mul_right_comm, Nat.mul_assoc]

theorem finite_div_pi (s : Bool) (m : Magnitude) :
    finite s m / pi = ofQuotient s (m.units * Magnitude.one) Magnitude.pi.units := by
  rw [pi_eq, finite_div_finite s false m Magnitude.pi_pos, Bool.bne_false]

theorem finite_mul_pi (s : Bool) (m : Magnitude) :
    finite s m * pi = ofQuotient s (m.units * Magnitude.pi.units) Magnitude.one := by
  rw [pi_eq, finite_mul_finite, Bool.bne_false]

/-- A quotient that is neither among the smallest numbers nor too large is near the exact one. -/
theorem exists_ofQuotient_near (s : Bool) (num : Nat) {den : Nat} (hden : 0 < den)
    (hlow : 2 ^ (52 : Nat) * den ≤ num) (hhigh : 2 * num < Magnitude.limit * den) :
    ∃ r : Magnitude, ofQuotient s num den = finite s r ∧ Near 53 (r.units * den) num := by
  have hnear := near_significant hden hlow
  have hlt : significant num den * den < Magnitude.limit * den := by
    have hle := hnear.le
    omega
  obtain ⟨r, hr, hunits⟩ := ofQuotient_of_lt (Nat.lt_of_mul_lt_mul_right hlt) s
  exact ⟨r, hr, hunits ▸ hnear⟩

/-- Below a finite number there are only finite numbers. -/
theorem of_abs_lt {x : Binary64} {t : Magnitude} (h : x.abs < finite false t) :
    x.isFinite = true ∧ x.units.natAbs < t.units := by
  change lt _ _ = true at h
  cases x with
  | nan => cases h
  | infinite s =>
    simp only [abs, lt, position?, signed, Bool.false_eq_true, if_false, decide_eq_true_eq] at h
    exact absurd t.units_lt (by omega)
  | finite s m =>
    simp only [abs, lt, position?, signed, Bool.false_eq_true, if_false, decide_eq_true_eq] at h
    rw [units, natAbs_signed]
    exact ⟨rfl, by omega⟩

end Binary64

end QuantumCircuit

import QuantumCircuit.Proofs.Angle.Fractions
import QuantumCircuit.Proofs.Number.Nearness

/-!
# Angles written and read again

An angle that is within the tolerance of a multiple `j * pi / divisor` is written as that multiple
(`exists_isMultiple`), and a multiple is read as a number near it (`exists_read?_piFraction`).  Two
roundings and the tolerance on the way there and three roundings on the way back leave it close to
what it was.  But the number in front of π stays within 64 bits, and from `2 ^ 53` times π on
every angle counts as a whole multiple, for the quotient by π has no digits after the point
(`wholeMultiple?_one_ne_none`).  So angles beyond `Magnitude.lastMultiple` are lost.

* `Angle.round_trip` : every finite angle is read again, and which of them are read as numbers
  close to them.
-/

namespace QuantumCircuit

-- Powers with natural exponents are those of the core library, whatever else is imported.
attribute [local instance (2000)] instPowNat

open Rounding
open Magnitude (one)

namespace Angle

variable {v : Binary64} {m : Magnitude} {s : Bool} {divisor j : Nat} {k : Int}

/-! ### What is written -/

/-- The magnitude is the multiple `j * pi / divisor`, up to what the tolerance and the roundings
leave. -/
structure IsMultiple (m : Magnitude) (divisor j : Nat) : Prop where
  pos : 0 < j
  le : 2 ^ (22 : Nat) * (8 * 10 ^ (8 : Nat)) * (m.units * divisor) ≤
    2 ^ (22 : Nat) * (8 * 10 ^ (8 : Nat)) * (j * Magnitude.pi.units) + m.units * divisor +
      2 ^ (22 : Nat) * Magnitude.pi.units
  ge : 2 ^ (22 : Nat) * (8 * 10 ^ (8 : Nat)) * (j * Magnitude.pi.units) ≤
    2 ^ (22 : Nat) * (8 * 10 ^ (8 : Nat)) * (m.units * divisor) + m.units * divisor +
      2 ^ (22 : Nat) * Magnitude.pi.units

/-- The number in front of π when the multiple is `j`: it stays within 64 bits. -/
def saturated (negative : Bool) (j : Nat) : Int :=
  max (-2 ^ (63 : Nat)) (min (2 ^ (63 : Nat) - 1) (Binary64.signed negative j))

theorem exists_snapTolerance_eq : ∃ t : Magnitude, snapTolerance = .finite false t ∧
    0 < t.units ∧ 9 * 10 ^ (8 : Nat) * t.units ≤ one := by
  have heq : snapTolerance = .ofQuotient false one (10 ^ (9 : Nat)) := by decide +kernel
  have hlow : 2 ^ (52 : Nat) * 10 ^ (9 : Nat) ≤ one := by decide +kernel
  have hhigh : 2 * one < Magnitude.limit * 10 ^ (9 : Nat) := by decide +kernel
  obtain ⟨t, ht, hnear⟩ := Binary64.exists_ofQuotient_near false one (by decide) hlow hhigh
  obtain ⟨hle, hge⟩ := hnear
  refine ⟨t, heq.trans ht, ?_, ?_⟩
  · have := Magnitude.one_pos
    omega
  · omega

/-- An infinite quotient is no whole multiple. -/
theorem not_snaps_infinite (s : Bool) :
    ¬(Binary64.infinite s - (Binary64.infinite s).round).abs < snapTolerance := by
  cases s <;> decide +kernel

/-- Both operations stay finite if there is a multiple. -/
theorem exists_of_wholeMultiple? (hlt : divisor < 2 ^ (53 : Nat))
    (h : wholeMultiple? (.finite s m) divisor = some k) : ∃ p q : Magnitude,
      p.units = significant (m.units * divisor) 1 ∧
      q.units = significant (p.units * one) Magnitude.pi.units ∧
      (Binary64.finite s q).round.isZero = false ∧
      (Binary64.finite s q - (Binary64.finite s q).round).abs < snapTolerance ∧
      k = (Binary64.finite s q).round.toInt64 := by
  rw [wholeMultiple?] at h
  simp only [Option.ite_none_right_eq_some, Bool.and_eq_true, Bool.not_eq_true', decide_eq_true_eq,
    Option.some.injEq] at h
  obtain ⟨⟨hzero, hsnaps⟩, hk⟩ := h
  rw [Binary64.finite_mul_ofNat s m hlt] at hzero hsnaps hk
  have hinfinite : ∀ {x : Binary64}, x = .infinite s → ¬(x - x.round).abs < snapTolerance := by
    rintro _ rfl
    exact not_snaps_infinite s
  rcases Nat.lt_or_ge (significant (m.units * divisor) 1) Magnitude.limit with hp | hp
  · obtain ⟨p, hp, hpunits⟩ := Binary64.ofQuotient_of_lt hp s
    rw [hp, Binary64.finite_div_pi] at hzero hsnaps hk
    rcases Nat.lt_or_ge (significant (p.units * one) Magnitude.pi.units) Magnitude.limit with
      hq | hq
    · obtain ⟨q, hq, hqunits⟩ := Binary64.ofQuotient_of_lt hq s
      rw [hq] at hzero hsnaps hk
      exact ⟨p, q, hpunits, hqunits, hzero, hsnaps, hk.symm⟩
    · exact absurd hsnaps (hinfinite (Binary64.ofQuotient_of_limit_le hq s))
  · have hdiv : Binary64.infinite s / Binary64.pi = .infinite s := by
      rw [Binary64.pi_eq]
      change Binary64.div _ _ = _
      rw [Binary64.div, Bool.bne_false]
    rw [Binary64.ofQuotient_of_limit_le hp, hdiv] at hsnaps
    exact absurd hsnaps (not_snaps_infinite s)

/-- A whole multiple is off by no more than the tolerance. -/
theorem exists_nearestWhole (q : Magnitude)
    (hzero : (Binary64.finite s q).round.isZero = false)
    (hsnaps : (Binary64.finite s q - (Binary64.finite s q).round).abs < snapTolerance) :
    0 < q.nearestWhole ∧ 8 * 10 ^ (8 : Nat) * q.units ≤
        8 * 10 ^ (8 : Nat) * (q.nearestWhole * one) + one ∧
      8 * 10 ^ (8 : Nat) * (q.nearestWhole * one) ≤ 8 * 10 ^ (8 : Nat) * q.units + one ∧
      (Binary64.finite s q).round.toInt64 = saturated s q.nearestWhole := by
  obtain ⟨r, hr, hunits⟩ := q.exists_round s
  obtain ⟨t, ht, -, htolerance⟩ := exists_snapTolerance_eq
  rw [hr] at hzero hsnaps ⊢
  rw [ht] at hsnaps
  obtain ⟨hfinite, hlt⟩ := Binary64.of_abs_lt hsnaps
  have hnear := Binary64.units_sub_near (x := .finite s q) (y := .finite s r) rfl rfl hfinite
  have hdistance : 8 * 10 ^ (8 : Nat) *
      ((Binary64.finite s q).units - (Binary64.finite s r).units).natAbs ≤ one := by
    omega
  have hpos : 0 < q.nearestWhole := by
    refine Nat.pos_of_ne_zero fun hnone => ?_
    rw [hnone, Nat.zero_mul] at hunits
    rw [Binary64.isZero, hunits] at hzero
    cases hzero
  have hwhole : r.units / one = q.nearestWhole := by
    rw [hunits, Nat.mul_div_cancel _ Magnitude.one_pos]
  refine ⟨hpos, ?_, ?_, ?_⟩
  · rw [← hunits]
    cases s <;> simp only [Binary64.units_positive, Binary64.units_negative] at hdistance <;> omega
  · rw [← hunits]
    cases s <;> simp only [Binary64.units_positive, Binary64.units_negative] at hdistance <;> omega
  · rw [Binary64.toInt64, hwhole, saturated]

/-- The tolerance and the two roundings before it taken together. -/
theorem isMultiple_of_near {one pi x p q : Nat} (hone : 0 < one) (hproduct : Near 53 p x)
    (hquotient : Near 53 (q * pi) (p * one))
    (hle : 8 * 10 ^ (8 : Nat) * q ≤ 8 * 10 ^ (8 : Nat) * (j * one) + one)
    (hge : 8 * 10 ^ (8 : Nat) * (j * one) ≤ 8 * 10 ^ (8 : Nat) * q + one) :
    2 ^ (22 : Nat) * (8 * 10 ^ (8 : Nat)) * x ≤
        2 ^ (22 : Nat) * (8 * 10 ^ (8 : Nat)) * (j * pi) + x + 2 ^ (22 : Nat) * pi ∧
      2 ^ (22 : Nat) * (8 * 10 ^ (8 : Nat)) * (j * pi) ≤
        2 ^ (22 : Nat) * (8 * 10 ^ (8 : Nat)) * x + x + 2 ^ (22 : Nat) * pi := by
  obtain ⟨hproduct_le, hproduct_ge⟩ := hproduct.mul_right one
  obtain ⟨hquotient_le, hquotient_ge⟩ := hquotient
  -- All of it is compared after multiplication by one and by π.
  have hle := Nat.mul_le_mul_right pi hle
  have hge := Nat.mul_le_mul_right pi hge
  have hcomm : j * (one * pi) = j * pi * one := by rw [Nat.mul_comm one, Nat.mul_assoc]
  simp only [Nat.add_mul, Nat.mul_assoc] at hle hge
  rw [hcomm, Nat.mul_comm one] at hle hge
  generalize j * pi = t at *
  constructor <;>
    refine Nat.le_of_mul_le_mul_right ?_ hone <;>
    simp only [Nat.add_mul, Nat.mul_assoc] <;>
    omega

theorem exists_isMultiple (hlt : divisor < 2 ^ (53 : Nat))
    (h : wholeMultiple? (.finite s m) divisor = some k) :
    ∃ j, IsMultiple m divisor j ∧ k = saturated s j := by
  obtain ⟨p, q, hp, hq, hzero, hsnaps, hk⟩ := exists_of_wholeMultiple? hlt h
  obtain ⟨hpos, hle, hge, hint⟩ := exists_nearestWhole q hzero hsnaps
  have hproduct : Near 53 p.units (m.units * divisor) := hp ▸ near_significant_one _
  have hquotient : Near 53 (q.units * Magnitude.pi.units) (p.units * one) := by
    have hlarge : 2 ^ (53 : Nat) ≤ q.units := by
      have hnear := q.nearestWhole_near.1
      have hwhole := Nat.le_mul_of_pos_left one hpos
      have hone := Magnitude.two_pow_le_one
      omega
    rw [hq] at hlarge ⊢
    exact near_significant Magnitude.pi_pos (mul_le_of_le_significant hlarge)
  obtain ⟨hle, hge⟩ := isMultiple_of_near Magnitude.one_pos hproduct hquotient hle hge
  exact ⟨q.nearestWhole, ⟨hpos, hle, hge⟩, hk.trans hint⟩

/-! ### What is read -/

/-- The three roundings on the way from a multiple of π to its value taken together. -/
theorem near_of_near {one pi n c p y : Nat} (hone : 0 < one) (hnumber : Near 53 c (n * one))
    (hproduct : Near 53 (p * one) (c * pi)) (hquotient : Near 53 y p) : Near 50 y (n * pi) := by
  obtain ⟨hnumber_le, hnumber_ge⟩ := hnumber.mul_right pi
  obtain ⟨hproduct_le, hproduct_ge⟩ := hproduct
  obtain ⟨hquotient_le, hquotient_ge⟩ := hquotient.mul_right one
  have hcomm : n * one * pi = n * pi * one := Nat.mul_right_comm ..
  rw [hcomm] at hnumber_le hnumber_ge
  generalize n * pi = t at *
  constructor <;>
    refine Nat.le_of_mul_le_mul_right ?_ hone <;>
    simp only [Nat.add_mul, Nat.mul_assoc] <;>
    omega

/-- The number in front of π, which is at least one and less than `2 ^ 63`. -/
theorem exists_number_near {n : Nat} (hn : 0 < n) (hlt : n < 2 ^ (63 : Nat)) :
    ∃ c : Magnitude, Binary64.ofNat n = .finite false c ∧ Near 53 c.units (n * one) ∧
      2 ^ (60 : Nat) ≤ c.units ∧ c.units < 2 ^ (64 : Nat) * one := by
  have hone := Magnitude.two_pow_le_one
  have hpi := Magnitude.three_mul_one_le
  have hlimit := Magnitude.two_pow_mul_pi_le
  have hlow := Nat.le_mul_of_pos_left one hn
  have hhigh := Nat.mul_lt_mul_of_pos_right hlt Magnitude.one_pos
  obtain ⟨c, hc, hnear⟩ := Binary64.exists_ofQuotient_near false (n * one) Nat.one_pos
    (by omega) (by omega)
  rw [Nat.mul_one] at hnear
  obtain ⟨hle, hge⟩ := hnear
  exact ⟨c, hc, ⟨hle, hge⟩, by omega, by omega⟩

theorem exists_product_near {c : Magnitude} (hlow : 2 ^ (60 : Nat) ≤ c.units)
    (hhigh : c.units < 2 ^ (64 : Nat) * one) : ∃ p : Magnitude,
      Binary64.finite false c * .pi = .finite false p ∧
      Near 53 (p.units * one) (c.units * Magnitude.pi.units) ∧
      2 ^ (59 : Nat) ≤ p.units ∧ 2 * p.units < Magnitude.limit := by
  have hpi : one ≤ Magnitude.pi.units := by
    have := Magnitude.three_mul_one_le
    omega
  have hlow : 2 ^ (60 : Nat) * one ≤ c.units * Magnitude.pi.units := Nat.mul_le_mul hlow hpi
  have hhigh : 8 * (c.units * Magnitude.pi.units) < Magnitude.limit * one := by
    have hmul := Nat.mul_lt_mul_of_pos_right hhigh Magnitude.pi_pos
    have hlimit := Nat.mul_le_mul_right one Magnitude.two_pow_mul_pi_le
    have hpos := Nat.mul_pos Magnitude.pi_pos Magnitude.one_pos
    generalize one = o at *
    generalize Magnitude.pi.units = π at *
    rw [Nat.mul_assoc, Nat.mul_comm o] at hmul
    rw [Nat.mul_assoc] at hlimit
    omega
  obtain ⟨p, hp, hnear⟩ := Binary64.exists_ofQuotient_near false
    (c.units * Magnitude.pi.units) Magnitude.one_pos (by omega) (by omega)
  obtain ⟨hle, hge⟩ := hnear
  refine ⟨p, by rw [Binary64.finite_mul_pi, hp], ⟨hle, hge⟩, ?_, ?_⟩
  · refine Nat.le_of_mul_le_mul_right ?_ Magnitude.one_pos
    omega
  · refine Nat.lt_of_mul_lt_mul_right (a := one) ?_
    rw [Nat.mul_assoc]
    omega

theorem exists_quotient_near {p : Magnitude} (hd : 0 < divisor) (hle : divisor ≤ 8)
    (hlow : 2 ^ (59 : Nat) ≤ p.units) (hhigh : 2 * p.units < Magnitude.limit) :
    ∃ r : Magnitude, (if divisor = 1 then Binary64.finite false p
        else .finite false p / .ofNat divisor) = .finite false r ∧
      Near 53 (r.units * divisor) p.units := by
  by_cases hone : divisor = 1
  · refine ⟨p, if_pos hone, ?_⟩
    rw [hone, Nat.mul_one]
    exact .refl ..
  · obtain ⟨r, hr, hnear⟩ := Binary64.exists_ofQuotient_near false p.units hd (by omega)
      (Nat.lt_of_lt_of_le hhigh (Nat.le_mul_of_pos_right _ hd))
    rw [if_neg hone, Binary64.finite_div_ofNat false p hd (by omega)]
    exact ⟨r, hr, hnear⟩

/-- A multiple of π is read as a number near it. -/
theorem exists_read?_piFraction (hk : k ≠ 0) (hlt : k.natAbs < 2 ^ (63 : Nat)) (hd : 0 < divisor)
    (hle : divisor ≤ 8) : ∃ r : Magnitude,
      read? (piFraction k divisor) = some (.finite (decide (k < 0)) r) ∧
      Near 50 (r.units * divisor) (k.natAbs * Magnitude.pi.units) := by
  obtain ⟨c, hc, hnumber, hclow, hchigh⟩ := exists_number_near (Int.natAbs_pos.2 hk) hlt
  obtain ⟨p, hp, hproduct, hplow, hphigh⟩ := exists_product_near hclow hchigh
  obtain ⟨r, hr, hquotient⟩ := exists_quotient_near hd hle hplow hphigh
  refine ⟨r, ?_, near_of_near Magnitude.one_pos hnumber hproduct hquotient⟩
  simp only [read?_piFraction k hd, fractionValue, hc, hp, hr]
  by_cases hnegative : k < 0
  · rw [if_pos hnegative, decide_eq_true hnegative]
    rfl
  · rw [if_neg hnegative, decide_eq_false hnegative]

end Angle

/-- The largest multiple of π that is written. -/
def Magnitude.lastMultiple : Magnitude :=
  ⟨2 ^ (63 : Nat) * pi.units, by decide +kernel, by decide +kernel⟩

open Magnitude (lastMultiple)

theorem Magnitude.lastMultiple_units : lastMultiple.units = 2 ^ (63 : Nat) * pi.units := rfl

namespace Angle

variable {v w : Binary64} {m r : Magnitude} {s : Bool} {divisor j : Nat} {k : Int}

theorem saturated_of_lt (hj : j < 2 ^ (63 : Nat)) : saturated s j = Binary64.signed s j := by
  cases s <;>
    simp only [saturated, Binary64.signed, if_true, Bool.false_eq_true, if_false] <;>
    omega

theorem saturated_of_le (hj : 2 ^ (63 : Nat) ≤ j) :
    saturated s j = if s then -2 ^ (63 : Nat) else 2 ^ (63 : Nat) - 1 := by
  cases s <;>
    simp only [saturated, Binary64.signed, if_true, Bool.false_eq_true, if_false] <;>
    omega

/-- All multiples from `2 ^ 63` on have the same text up to the sign, and it is read as the last
multiple. -/
theorem read?_saturated (hj : 2 ^ (63 : Nat) ≤ j) :
    read? (piFraction (saturated s j) 1) = some (.finite s lastMultiple) := by
  rw [read?_piFraction _ Nat.one_pos, saturated_of_le hj]
  cases s <;> decide +kernel

theorem exists_read?_saturated (hpos : 0 < j) (hj : j < 2 ^ (63 : Nat)) (hd : 0 < divisor)
    (hle : divisor ≤ 8) : ∃ r : Magnitude,
      read? (piFraction (saturated s j) divisor) = some (.finite s r) ∧
      Near 50 (r.units * divisor) (j * Magnitude.pi.units) := by
  have hnatAbs : (Binary64.signed s j).natAbs = j := Binary64.natAbs_signed s j
  have hsign : decide (Binary64.signed s j < 0) = s := by
    cases s
    · exact decide_eq_false (by simp [Binary64.signed])
    · exact decide_eq_true (by simp only [Binary64.signed, if_true]; omega)
  have hread := exists_read?_piFraction (k := Binary64.signed s j) (by omega) (by omega) hd hle
  rwa [hnatAbs, hsign, ← saturated_of_lt hj] at hread

/-! ### Which text is written -/

theorem write_of_wholeMultiple?_one (h : wholeMultiple? v 1 = some k) :
    write v = piFraction k 1 := by
  simp [write, divisors, h]

/-- The text is a multiple of π over the first divisor that fits, or else the number. -/
theorem write_cases (v : Binary64) :
    (∃ divisor ∈ divisors, ∃ k, wholeMultiple? v divisor = some k ∧
      write v = piFraction k divisor ∧ (divisor = 1 ∨ wholeMultiple? v 1 = none)) ∨
    wholeMultiple? v 1 = none ∧ write v = toString v := by
  cases hone : wholeMultiple? v 1 with
  | some k => exact .inl ⟨1, by decide, k, hone, write_of_wholeMultiple?_one hone, .inl rfl⟩
  | none =>
    rw [write]
    cases hfound : divisors.findSome? fun d => (wholeMultiple? v d).map (piFraction · d) with
    | none => exact .inr ⟨rfl, rfl⟩
    | some text =>
      obtain ⟨divisor, hmem, htext⟩ := List.exists_of_findSome?_eq_some hfound
      obtain ⟨k, hk, rfl⟩ := Option.map_eq_some_iff.1 htext
      exact .inl ⟨divisor, hmem, k, hk, rfl, .inr rfl⟩

theorem sub_self_abs_lt (q : Magnitude) :
    (Binary64.finite s q - .finite s q).abs < snapTolerance := by
  obtain ⟨t, ht, hpos, -⟩ := exists_snapTolerance_eq
  have hzero : Binary64.finite s q - .finite s q = .zero false := by
    change Binary64.ofUnits (s && !s) (Binary64.signed s q.units + Binary64.signed (!s) q.units) = _
    rw [Bool.and_not_self, Binary64.ofUnits, if_pos]
    cases s
    · exact Int.add_right_neg _
    · exact Int.add_left_neg _
  have hlt : (0 : Int) < t.units := by omega
  rw [ht, hzero]
  exact decide_eq_true hlt

/-- From `2 ^ 53` times π on every number is a whole multiple of π, as far as the computation
shows. -/
theorem wholeMultiple?_one_ne_none (h : 2 ^ (53 : Nat) * Magnitude.pi.units ≤ m.units) :
    wholeMultiple? (.finite s m) 1 ≠ none := by
  have hhigh : 2 * (m.units * one) < Magnitude.limit * Magnitude.pi.units := by
    have hlt := Nat.mul_lt_mul_of_pos_right m.units_lt Magnitude.one_pos
    have hle := Nat.mul_le_mul_left Magnitude.limit Magnitude.three_mul_one_le
    rw [Nat.mul_left_comm] at hle
    omega
  have hlow : 2 ^ (53 : Nat) * (one * Magnitude.pi.units) ≤ m.units * one := by
    rw [Nat.mul_comm one, ← Nat.mul_assoc]
    exact Nat.mul_le_mul_right one h
  obtain ⟨q, hq, hnear⟩ := Binary64.exists_ofQuotient_near s (m.units * one) Magnitude.pi_pos
    (by have := Nat.le_mul_of_pos_right m.units Magnitude.one_pos; omega) hhigh
  have hlarge : 2 ^ (52 : Nat) * one ≤ q.units := by
    have hge := hnear.ge
    refine Nat.le_of_mul_le_mul_right ?_ Magnitude.pi_pos
    rw [Nat.mul_assoc]
    omega
  -- The quotient is a whole number, so it is its own rounding.
  have hround : (Binary64.finite s q).round = .finite s q := by
    obtain ⟨r, hr, hunits⟩ := q.exists_round s
    rw [Magnitude.nearestWhole_eq (Magnitude.one_dvd_units hlarge)] at hunits
    rw [hr, Magnitude.eq_of_units hunits]
  have hzero : (Binary64.finite s q).isZero = false := by
    have := Magnitude.one_pos
    exact beq_false_of_ne (by omega)
  have hquotient : Binary64.finite s m * .ofNat 1 / .pi = .finite s q := by
    rw [Binary64.finite_mul_ofNat s m (by decide), Nat.mul_one,
      Binary64.ofQuotient_of_some m.ofQuotient?_units, Binary64.finite_div_pi, hq]
  rw [wholeMultiple?, hquotient, hround, hzero, decide_eq_true (sub_self_abs_lt q)]
  exact Option.some_ne_none _

/-! ### Bounds -/

namespace IsMultiple

/-- A multiple that is not beyond the last one is no larger than that. -/
theorem units_le (h : IsMultiple m divisor j) (hd : 0 < divisor) (hj : j < 2 ^ (63 : Nat)) :
    (10 ^ (8 : Nat) - 1) * m.units ≤ 10 ^ (8 : Nat) * lastMultiple.units := by
  have hle := h.le
  have hj := Nat.mul_le_mul_right Magnitude.pi.units (Nat.le_of_lt hj)
  have hd := Nat.le_mul_of_pos_right m.units hd
  have hlast := Magnitude.lastMultiple_units
  generalize lastMultiple.units = last at *
  generalize Magnitude.pi.units = π at *
  omega

/-- A multiple from the last one on is no smaller than that. -/
theorem le_units (h : IsMultiple m 1 j) (hj : 2 ^ (63 : Nat) ≤ j) :
    10 ^ (8 : Nat) * lastMultiple.units ≤ (10 ^ (8 : Nat) + 1) * m.units := by
  have hge := h.ge
  have hj := Nat.mul_le_mul_right Magnitude.pi.units hj
  have hlast := Magnitude.lastMultiple_units
  generalize lastMultiple.units = last at *
  generalize Magnitude.pi.units = π at *
  omega

/-- Such a multiple is one of π itself, for the first divisor fits. -/
theorem two_pow_mul_pi_le (h : IsMultiple m divisor j) (hle : divisor ≤ 8)
    (hj : 2 ^ (63 : Nat) ≤ j) : 2 ^ (53 : Nat) * Magnitude.pi.units ≤ m.units := by
  have hge := h.ge
  have hj := Nat.mul_le_mul_right Magnitude.pi.units hj
  have hd := Nat.mul_le_mul_left m.units hle
  generalize Magnitude.pi.units = π at *
  omega

/-- A number near the multiple is near the angle. -/
theorem near (h : IsMultiple m divisor j) (hd : 0 < divisor)
    (hr : Near 50 (r.units * divisor) (j * Magnitude.pi.units)) :
    10 ^ (8 : Nat) * ((r.units : Int) - m.units).natAbs ≤ max one m.units := by
  obtain ⟨hle, hge⟩ := hr
  have hpi := Magnitude.five_mul_pi_le
  have hmultiple_le := h.le
  have hmultiple_ge := h.ge
  have hone := Nat.le_max_left one m.units
  have hunits := Nat.mul_le_mul_right divisor (Nat.le_max_right one m.units)
  generalize max one m.units = bound at *
  have hbound := Nat.le_mul_of_pos_right bound hd
  -- Everything is compared after multiplication by the divisor.
  have habove : 10 ^ (8 : Nat) * r.units ≤ 10 ^ (8 : Nat) * m.units + bound := by
    refine Nat.le_of_mul_le_mul_right ?_ hd
    rw [Nat.add_mul, Nat.mul_assoc, Nat.mul_assoc]
    omega
  have hbelow : 10 ^ (8 : Nat) * m.units ≤ 10 ^ (8 : Nat) * r.units + bound := by
    refine Nat.le_of_mul_le_mul_right ?_ hd
    rw [Nat.add_mul, Nat.mul_assoc, Nat.mul_assoc]
    omega
  omega

end IsMultiple

/-- The second number is as close to the first as a text that is read again should leave it: off
by at most `10 ^ (-8)` times the first number, or times one if that is larger. -/
def CloseTo (v w : Binary64) : Prop :=
  w.isFinite = true ∧
    10 ^ (8 : Nat) * (w.units - v.units).natAbs ≤ max one v.units.natAbs

theorem closeTo_finite_iff : CloseTo (.finite s m) (.finite s r) ↔
    10 ^ (8 : Nat) * ((r.units : Int) - m.units).natAbs ≤ max one m.units := by
  have hdistance : ((Binary64.finite s r).units - (Binary64.finite s m).units).natAbs =
      ((r.units : Int) - m.units).natAbs := by
    cases s
    · rfl
    · simp only [Binary64.units_negative]
      omega
  have hsize : (Binary64.finite s m).units.natAbs = m.units := Binary64.natAbs_signed s m.units
  rw [CloseTo, hdistance, hsize]
  exact and_iff_right rfl

theorem closeTo_self (hv : v.isFinite = true) : CloseTo v v :=
  ⟨hv, by simp⟩

/-- Every finite number is written as a text that is read again. -/
theorem exists_read?_write (s : Bool) (m : Magnitude) :
    ∃ r, read? (write (.finite s m)) = some (.finite s r) ∧
      (CloseTo (.finite s m) (.finite s r) ∧
          (10 ^ (8 : Nat) - 1) * m.units ≤ 10 ^ (8 : Nat) * lastMultiple.units ∨
        r = lastMultiple ∧
          10 ^ (8 : Nat) * lastMultiple.units ≤ (10 ^ (8 : Nat) + 1) * m.units) := by
  have hlast := Magnitude.lastMultiple_units
  rcases write_cases (.finite s m) with
    ⟨divisor, hmem, k, hk, hwrite, hfirst⟩ | ⟨hnone, hwrite⟩
  · have hsmall : 0 < divisor ∧ divisor ≤ 8 := by
      have hall : ∀ divisor ∈ divisors, 0 < divisor ∧ divisor ≤ 8 := by decide
      exact hall divisor hmem
    obtain ⟨hd, hle⟩ := hsmall
    obtain ⟨j, hmultiple, rfl⟩ := exists_isMultiple (by omega) hk
    rw [hwrite]
    rcases Nat.lt_or_ge j (2 ^ (63 : Nat)) with hj | hj
    · obtain ⟨r, hread, hr⟩ := exists_read?_saturated hmultiple.pos hj hd hle
      exact ⟨r, hread, .inl ⟨closeTo_finite_iff.2 (hmultiple.near hd hr),
        hmultiple.units_le hd hj⟩⟩
    · obtain rfl : divisor = 1 := hfirst.resolve_right
        (wholeMultiple?_one_ne_none (hmultiple.two_pow_mul_pi_le hle hj))
      exact ⟨lastMultiple, read?_saturated hj, .inr ⟨rfl, hmultiple.le_units hj⟩⟩
  · have hlt : m.units < 2 ^ (53 : Nat) * Magnitude.pi.units :=
      Nat.not_le.1 fun hle => wholeMultiple?_one_ne_none hle hnone
    refine ⟨m, ?_, .inl ⟨closeTo_self rfl, ?_⟩⟩
    · rw [hwrite, read?_toString rfl]
    · generalize lastMultiple.units = last at *
      omega

/-- What is written for a finite angle is read again, as a finite number.  It is close to the
angle exactly if that is at most the last multiple of π, up to `10 ^ (-8)` of the angle; beyond
that, all angles of one sign are read as the last multiple. -/
theorem round_trip (hv : v.isFinite = true) : ∃ w, read? (write v) = some w ∧
    w.isFinite = true ∧
    (CloseTo v w ↔
      (10 ^ (8 : Nat) - 1) * v.units.natAbs ≤ 10 ^ (8 : Nat) * lastMultiple.units) ∧
    (10 ^ (8 : Nat) * lastMultiple.units < (10 ^ (8 : Nat) - 1) * v.units.natAbs →
      w = .finite (decide (v.units < 0)) lastMultiple) := by
  cases v with
  | infinite s => cases hv
  | nan => cases hv
  | finite s m =>
    have hsize : (Binary64.finite s m).units.natAbs = m.units := Binary64.natAbs_signed s m.units
    obtain ⟨r, hread, hr⟩ := exists_read?_write s m
    refine ⟨.finite s r, hread, rfl, ?_⟩
    rw [hsize]
    rcases hr with ⟨hclose, hle⟩ | ⟨rfl, hge⟩
    · exact ⟨iff_of_true hclose hle, fun hlt => absurd hlt (Nat.not_lt.2 hle)⟩
    · have hlarge : one ≤ m.units := by
        have hlast := Magnitude.lastMultiple_units
        have hpi := Magnitude.three_mul_one_le
        generalize lastMultiple.units = last at *
        generalize Magnitude.pi.units = π at *
        omega
      have hpos := Magnitude.one_pos
      rw [closeTo_finite_iff, Nat.max_eq_right hlarge]
      generalize lastMultiple.units = last at *
      refine ⟨by omega, fun _ => ?_⟩
      have hsign : decide ((Binary64.finite s m).units < 0) = s := by
        cases s
        · exact decide_eq_false (by rw [Binary64.units_positive]; omega)
        · exact decide_eq_true (by rw [Binary64.units_negative]; omega)
      rw [hsign]

/-- π is read again as a number close to it. -/
theorem round_trip_pi : Binary64.pi.isFinite = true ∧
    ∃ w, read? (write .pi) = some w ∧ CloseTo .pi w := by
  have hfinite : Binary64.pi.isFinite = true := by decide +kernel
  obtain ⟨w, hread, -, hclose, -⟩ := round_trip hfinite
  exact ⟨hfinite, w, hread, hclose.2 (by decide +kernel)⟩

/-- Ten to the power of 22 is written as the last multiple of π, which is far from it. -/
theorem write_saturates : (Binary64.ofNat (10 ^ (22 : Nat))).isFinite = true ∧
    write (.ofNat (10 ^ (22 : Nat))) = "9223372036854775807*pi" ∧
    ∃ w, read? (write (.ofNat (10 ^ (22 : Nat)))) = some w ∧
      ¬CloseTo (.ofNat (10 ^ (22 : Nat))) w := by
  have hmultiple : wholeMultiple? (.ofNat (10 ^ (22 : Nat))) 1 = some (2 ^ (63 : Nat) - 1) := by
    decide +kernel
  have hwrite := write_of_wholeMultiple?_one hmultiple
  refine ⟨by decide +kernel, ?_, .finite false lastMultiple, ?_, fun hclose => ?_⟩
  · rw [hwrite]
    decide +kernel
  · rw [hwrite]
    exact read?_saturated (s := false) (j := 2 ^ (63 : Nat)) (Nat.le_refl _)
  · exact absurd hclose.2 (by decide +kernel)

end Angle

end QuantumCircuit

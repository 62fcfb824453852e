import QuantumCircuit.Number.Shortest
import QuantumCircuit.Proofs.Number.Difference
import QuantumCircuit.Proofs.Number.Literals

/-!
# Numbers read back from their text

Rounding depends on the value of a quotient and not on how it is written (`significant_congr`), and
the cut-offs of `Binary64.ofDecimal` are where the result is settled (`ofDecimal_eq`).  So decimals
that are the same number denote the same binary64 number (`ofDecimal_congr`).  The positional text
of a decimal is read as the same number again, and the shortest decimal of a number was chosen
among those that read back.

* `Literal.value?_toText` : the text of a number is a literal that denotes it, for all numbers,
  the infinite ones and NaN included.
* `Binary64.toText_injective` : different numbers have different texts.
-/

namespace QuantumCircuit

-- Powers with natural exponents are those of the core library, whatever else is imported.
attribute [local instance (2000)] instPowNat

namespace Rounding

variable {num den num' den' : Nat}

theorem nearestEven_mul_right {k : Nat} (hk : 0 < k) (num den : Nat) :
    nearestEven (num * k) (den * k) = nearestEven num den := by
  have hlt : 2 * (num % den * k) < den * k ↔ 2 * (num % den) < den := by
    rw [← Nat.mul_assoc, Nat.mul_lt_mul_right hk]
  have heq : 2 * (num % den * k) = den * k ↔ 2 * (num % den) = den := by
    rw [← Nat.mul_assoc, Nat.mul_left_inj (Nat.ne_of_gt hk)]
  simp only [nearestEven, Nat.mul_div_mul_right num den hk, Nat.mul_mod_mul_right, hlt, heq]

theorem significant_mul_right {k : Nat} (hk : 0 < k) (num den : Nat) :
    significant (num * k) (den * k) = significant num den := by
  simp only [significant, Nat.mul_div_mul_right num den hk]
  rw [Nat.mul_right_comm, nearestEven_mul_right hk]

/-- Equal quotients are rounded to the same number. -/
theorem significant_congr (hden : 0 < den) (hden' : 0 < den') (h : num * den' = num' * den) :
    significant num den = significant num' den' := by
  rw [← significant_mul_right hden' num den, h, Nat.mul_comm den den',
    significant_mul_right hden num' den']

/-- A quotient of less than a half is rounded to zero. -/
theorem significant_eq_zero (h : 2 * num < den) : significant num den = 0 := by
  have hlt : num < den := by omega
  have hspacing : spacing 0 = 1 := rfl
  rw [significant, Nat.div_eq_of_lt hlt, hspacing, Nat.mul_one, Nat.mul_one, nearestEven,
    Nat.mod_eq_of_lt hlt, if_pos (.inl h), Nat.div_eq_of_lt hlt]

theorem le_div_mul_of_dvd {s w u : Nat} (hw : s ∣ w) (hu : w ≤ u) : w ≤ u / s * s := by
  obtain ⟨k, rfl⟩ := hw
  rcases Nat.eq_zero_or_pos s with rfl | hs
  · simp
  · rw [Nat.mul_comm s k] at hu ⊢
    exact Nat.mul_le_mul_right s ((Nat.le_div_iff_mul_le hs).2 hu)

/-- Rounding does not fall below a power of two. -/
theorem two_pow_le_significant {e : Nat} (h : 2 ^ e ≤ num / den) : 2 ^ e ≤ significant num den := by
  have hu : num / den ≠ 0 := by
    have := Nat.two_pow_pos e
    omega
  have hlog := (Nat.le_log2 hu).2 h
  -- The power of two below the quotient is on the grid around it.
  have hgrid : spacing (num / den) ∣ 2 ^ (num / den).log2 := Nat.pow_dvd_pow 2 (Nat.sub_le ..)
  calc 2 ^ e ≤ 2 ^ (num / den).log2 := Nat.pow_le_pow_right (by decide) hlog
    _ ≤ num / den / spacing (num / den) * spacing (num / den) :=
      le_div_mul_of_dvd hgrid (Nat.log2_self_le hu)
    _ ≤ significant num den := by
      rw [Nat.div_div_eq_div_mul, significant]
      exact Nat.mul_le_mul_right _ (le_nearestEven ..)

end Rounding

open Rounding

namespace Binary64

variable {num den num' den' : Nat} {s : Bool} {d d' : Decimal}

theorem ofQuotient_of_limit_le (h : Magnitude.limit ≤ significant num den) (negative : Bool) :
    ofQuotient negative num den = infinite negative := by
  have hnone : Magnitude.ofQuotient? num den = none := dif_neg (Nat.not_lt.2 h)
  unfold ofQuotient
  generalize Magnitude.ofQuotient? num den = rounded at hnone
  rw [hnone]

theorem ofQuotient_of_units {m : Magnitude} (h : significant num den = m.units)
    (negative : Bool) : ofQuotient negative num den = finite negative m := by
  obtain ⟨k, hk, hunits⟩ := ofQuotient_of_lt (h ▸ m.units_lt) negative
  rw [hk, Magnitude.eq_of_units (hunits.trans h)]

theorem ofQuotient_congr (hden : 0 < den) (hden' : 0 < den') (h : num * den' = num' * den)
    (negative : Bool) : ofQuotient negative num den = ofQuotient negative num' den' := by
  have hsame := significant_congr hden hden' h
  rcases Nat.lt_or_ge (significant num den) Magnitude.limit with hlt | hge
  · obtain ⟨m, hm, hunits⟩ := ofQuotient_of_lt hlt negative
    rw [hm, ofQuotient_of_units (by rw [← hsame, hunits])]
  · rw [ofQuotient_of_limit_le hge, ofQuotient_of_limit_le (hsame ▸ hge)]

/-- The sign does not matter for rounding. -/
theorem ofQuotient_eq_finite {m : Magnitude} (h : ofQuotient false num den = finite false m)
    (negative : Bool) : ofQuotient negative num den = finite negative m := by
  obtain ⟨k, hk, hunits⟩ := exists_of_isFinite (by rw [h]; rfl)
  rw [h] at hk
  cases hk
  exact ofQuotient_of_units hunits.symm negative

end Binary64

/-! ### The number that a decimal denotes -/

namespace Decimal

/-- The decimal is the quotient of `num` and `den`. -/
def num (d : Decimal) : Nat := d.digits * 10 ^ d.exponent.toNat

/-- The power of ten below the line in that quotient. -/
def den (d : Decimal) : Nat := 10 ^ (-d.exponent).toNat

theorem den_pos (d : Decimal) : 0 < d.den := Nat.pow_pos (by decide)

@[simp]
theorem num_natCast (digits e : Nat) : num ⟨digits, e⟩ = digits * 10 ^ e := rfl

@[simp]
theorem den_natCast (digits e : Nat) : den ⟨digits, e⟩ = 1 := by
  have hexponent : (-(e : Int)).toNat = 0 := by omega
  rw [den, hexponent, Nat.pow_zero]

@[simp]
theorem num_neg_natCast (digits e : Nat) : num ⟨digits, -e⟩ = digits := by
  have hexponent : (-(e : Int)).toNat = 0 := by omega
  rw [num, hexponent, Nat.pow_zero, Nat.mul_one]

@[simp]
theorem den_neg_natCast (digits e : Nat) : den ⟨digits, -e⟩ = 10 ^ e := by
  rw [den, Int.neg_neg, Int.toNat_natCast]

/-- The two decimals are the same number. -/
def Same (d d' : Decimal) : Prop := d.num * d'.den = d'.num * d.den

end Decimal

namespace Magnitude

theorem one_pos : 0 < one := by simp only [one, Nat.two_pow_pos]

theorem two_pow_le_ten_pow {k e : Nat} (h : 28 * k + 1 ≤ e) : 2 ^ (93 * k + 1) ≤ 10 ^ e := by
  refine Nat.le_trans ?_ (Nat.pow_le_pow_right (by decide) h)
  rw [Nat.pow_succ, Nat.pow_succ, Nat.pow_mul, Nat.pow_mul]
  exact Nat.mul_le_mul (Nat.pow_le_pow_left (by decide) k) (by decide)

/-- A power of ten of 310 digits is beyond all finite numbers. -/
theorem limit_le_of_le {e : Nat} (he : 309 ≤ e) : limit ≤ 10 ^ e * one := by
  have hlimit : ∀ k, k = 11 → limit = 2 ^ (93 * k + 1) * one := by
    rintro _ rfl
    simp only [limit, one, ← Nat.pow_add, Nat.reduceAdd, Nat.reduceMul]
  obtain ⟨k, hk⟩ : ∃ k, k = 11 := ⟨11, rfl⟩
  rw [hlimit k hk]
  exact Nat.mul_le_mul_right one (two_pow_le_ten_pow (by omega))

/-- A power of ten with three times more digits than the binary logarithm says leaves less than
half a unit. -/
theorem two_mul_lt_of_le {digits e : Nat} (he : digits.log2 + 1077 ≤ 3 * (e + 1)) :
    2 * (digits * one) < 10 ^ (e + 1) :=
  calc 2 * (digits * one)
      < 2 * (2 ^ (digits.log2 + 1) * one) := by
        have hlt := Nat.mul_lt_mul_of_pos_right (Nat.lt_log2_self (n := digits)) one_pos
        omega
    _ = 2 ^ (digits.log2 + 1076) := by
        simp only [one, ← Nat.pow_add, ← Nat.pow_succ']
    _ ≤ 2 ^ (3 * (e + 1)) := Nat.pow_le_pow_right (by decide) (by omega)
    _ = (2 ^ 3) ^ (e + 1) := Nat.pow_mul ..
    _ ≤ 10 ^ (e + 1) := Nat.pow_le_pow_left (by decide) _

theorem limit_le_significant {num den : Nat} (h : limit ≤ num / den) :
    limit ≤ significant num den := by
  rw [limit] at *
  exact two_pow_le_significant (e := 2098) h

end Magnitude

namespace Binary64

variable {d d' : Decimal}

/-- The cut-offs leave the result as it is. -/
theorem ofDecimal_eq (negative : Bool) (d : Decimal) :
    ofDecimal negative d = ofQuotient negative (d.num * Magnitude.one) d.den := by
  obtain ⟨digits, exponent⟩ := d
  have hzero : ∀ {num den}, 2 * num < den → ofQuotient negative num den = zero negative :=
    fun h => ofQuotient_of_units (m := .zero) (significant_eq_zero h) negative
  unfold ofDecimal
  dsimp only
  split
  · rename_i hdigits
    subst hdigits
    refine (hzero ?_).symm
    rw [Decimal.num, Nat.zero_mul, Nat.zero_mul, Nat.mul_zero]
    exact Decimal.den_pos _
  · rename_i hdigits
    cases exponent with
    | ofNat e =>
      have hnum : (⟨digits, .ofNat e⟩ : Decimal).num = digits * 10 ^ e := Decimal.num_natCast ..
      have hden : (⟨digits, .ofNat e⟩ : Decimal).den = 1 := Decimal.den_natCast ..
      rw [hnum, hden]
      dsimp only
      split
      · rename_i he
        -- Beyond the cut-off even one digit is too large.
        have hlarge : Magnitude.limit ≤ digits * 10 ^ e * Magnitude.one / 1 := by
          rw [Nat.div_one]
          exact Nat.le_trans (Magnitude.limit_le_of_le he)
            (Nat.mul_le_mul_right _ (Nat.le_mul_of_pos_left _ (Nat.pos_of_ne_zero hdigits)))
        exact (ofQuotient_of_limit_le (Magnitude.limit_le_significant hlarge) negative).symm
      · rfl
    | negSucc e =>
      have hnum : (⟨digits, .negSucc e⟩ : Decimal).num = digits :=
        Decimal.num_neg_natCast digits (e + 1)
      have hden : (⟨digits, .negSucc e⟩ : Decimal).den = 10 ^ (e + 1) :=
        Decimal.den_neg_natCast digits (e + 1)
      rw [hnum, hden]
      dsimp only
      split
      · rename_i he
        -- Beyond the cut-off the number is less than half a unit.
        exact (hzero (Magnitude.two_mul_lt_of_le he)).symm
      · rfl

/-- Decimals that are the same number denote the same binary64 number. -/
theorem ofDecimal_congr (h : d.Same d') (negative : Bool) :
    ofDecimal negative d = ofDecimal negative d' := by
  rw [ofDecimal_eq, ofDecimal_eq]
  refine ofQuotient_congr d.den_pos d'.den_pos ?_ negative
  rw [Nat.mul_right_comm, h, Nat.mul_right_comm]

end Binary64

/-! ### Positional text -/

namespace Decimal

theorem eq_append_dropTrailingZeros (digits : List Char) :
    ∃ k, digits = dropTrailingZeros digits ++ List.replicate k '0' := by
  refine ⟨(digits.reverse.takeWhile (· == '0')).length, ?_⟩
  have hzeros : digits.reverse.takeWhile (· == '0') =
      List.replicate (digits.reverse.takeWhile (· == '0')).length '0' :=
    List.eq_replicate_iff.2 ⟨rfl, fun c hc => by
      simpa using List.all_eq_true.1 List.all_takeWhile c hc⟩
  have hsplit := List.takeWhile_append_dropWhile (p := (· == '0')) (l := digits.reverse)
  rw [dropTrailingZeros, ← List.reverse_inj, List.reverse_append, List.reverse_reverse,
    List.reverse_replicate, ← hzeros, hsplit]

/-- The digits are filled up with zeros in front, so that there are `n` places and a digit before
them. -/
theorem splitPlaces_spec (digits : List Char) (n : Nat) :
    (splitPlaces digits n).1 ≠ [] ∧ (splitPlaces digits n).2.length = n ∧
      ∃ k, (splitPlaces digits n).1 ++ (splitPlaces digits n).2 =
        List.replicate k '0' ++ digits := by
  simp only [splitPlaces]
  have hlength : n + 1 ≤ (List.replicate (n + 1 - digits.length) '0' ++ digits).length := by
    simp only [List.length_append, List.length_replicate]
    omega
  generalize hk : n + 1 - digits.length = k at *
  refine ⟨?_, ?_, k, List.take_append_drop ..⟩
  · rw [← List.length_pos_iff, List.length_take]
    omega
  · rw [List.length_drop]
    omega

/-- The text of digits and the number that they are read as. -/
structure Reads (digits : List Char) (k : Nat) : Prop where
  isDigit : ∀ c ∈ digits, c.isDigit = true
  value : Nat.ofDigitChars 10 digits 0 = k

theorem reads_toDigits (k : Nat) : Reads (Nat.toDigits 10 k) k where
  isDigit _ hc := Nat.isDigit_of_mem_toDigits (by decide) (by decide) hc
  value := Nat.ofDigitChars_ten_toDigits

theorem Reads.wellFormed {digits : List Char} {k : Nat} (h : Reads digits k) :
    (⟨digits, false, []⟩ : Numeral).WellFormed :=
  ⟨h.isDigit, nofun, fun _ => rfl⟩

theorem isDigit_replicate_zero (k : Nat) : ∀ c ∈ List.replicate k '0', c.isDigit = true :=
  fun c hc => by
    rw [List.eq_of_mem_replicate hc]
    rfl

theorem Reads.append_zeros {digits : List Char} {k : Nat} (h : Reads digits k) (e : Nat) :
    Reads (digits ++ List.replicate e '0') (k * 10 ^ e) where
  isDigit c hc := (List.mem_append.1 hc).elim (h.isDigit c) (isDigit_replicate_zero e c)
  value := by
    rw [Nat.ofDigitChars_append, h.value, Nat.ofDigitChars_replicate_zero, Nat.mul_comm]

theorem Reads.zeros_append {digits : List Char} {k : Nat} (h : Reads digits k) (e : Nat) :
    Reads (List.replicate e '0' ++ digits) k where
  isDigit c hc := (List.mem_append.1 hc).elim (isDigit_replicate_zero e c) (h.isDigit c)
  value := by
    rw [Nat.ofDigitChars_append, Nat.ofDigitChars_replicate_zero, Nat.mul_zero, h.value]

theorem value?_of_whole {n : Numeral} (h : n.whole ≠ []) :
    n.value? = some ⟨Nat.ofDigitChars 10 (n.whole ++ n.fraction) 0, -n.fraction.length⟩ :=
  if_neg (by simp [h])

theorem positional_ofNat (digits e : Nat) : (⟨digits, .ofNat e⟩ : Decimal).positional =
    (⟨Nat.toDigits 10 digits ++ List.replicate e '0', false, []⟩ : Numeral).toText :=
  (List.append_nil _).symm

/-- There is a point if a digit follows it. -/
theorem positional_negSucc {digits e : Nat} {whole places : List Char}
    (h : splitPlaces (Nat.toDigits 10 digits) (e + 1) = (whole, places)) :
    (⟨digits, .negSucc e⟩ : Decimal).positional =
      Numeral.toText ⟨whole, !(dropTrailingZeros places).isEmpty, dropTrailingZeros places⟩ := by
  simp only [positional, h, Numeral.toText]
  generalize dropTrailingZeros places = fraction
  cases fraction <;> simp

/-- A decimal is written as a numeral that is the same number. -/
theorem exists_numeral (d : Decimal) : ∃ n : Numeral, n.WellFormed ∧ d.positional = n.toText ∧
    ∃ d', n.value? = some d' ∧ d'.Same d := by
  obtain ⟨digits, exponent⟩ := d
  cases exponent with
  | ofNat e =>
    have hreads := (reads_toDigits digits).append_zeros e
    refine ⟨_, hreads.wellFormed, positional_ofNat digits e, _,
      value?_of_whole (by simp [Nat.toDigits_ne_nil]), ?_⟩
    dsimp only
    rw [List.append_nil, hreads.value, List.length_nil, Same, Int.ofNat_eq_natCast, num_natCast,
      den_natCast, num_neg_natCast, den_neg_natCast, Nat.pow_zero]
  | negSucc e =>
    obtain ⟨hne, hplaces, k, hpadded⟩ := splitPlaces_spec (Nat.toDigits 10 digits) (e + 1)
    have hreads := (reads_toDigits digits).zeros_append k
    obtain ⟨whole, places, hsplit⟩ : ∃ whole places,
        splitPlaces (Nat.toDigits 10 digits) (e + 1) = (whole, places) := ⟨_, _, rfl⟩
    rw [positional_negSucc hsplit]
    rw [hsplit] at hne hplaces hpadded
    -- The zeros that are left out at the end count as places.
    obtain ⟨zeros, hzeros⟩ := eq_append_dropTrailingZeros places
    generalize dropTrailingZeros places = fraction at *
    subst hzeros
    rw [← hpadded] at hreads
    have hdigits : ∀ c ∈ whole ++ fraction, c.isDigit = true := fun c hc =>
      hreads.isDigit c (by rw [← List.append_assoc]; exact List.mem_append_left _ hc)
    have hscaled := (Reads.mk hdigits rfl).append_zeros zeros
    rw [List.append_assoc] at hscaled
    refine ⟨_, ⟨fun c hc => ?_, fun c hc => ?_, by simp⟩, rfl, _, value?_of_whole hne, ?_⟩
    · exact hdigits c (List.mem_append_left _ hc)
    · exact hdigits c (List.mem_append_right _ hc)
    · dsimp only
      rw [List.length_append, List.length_replicate] at hplaces
      rw [Same, Int.negSucc_eq, ← Int.natCast_succ, num_neg_natCast, num_neg_natCast,
        den_neg_natCast, den_neg_natCast, Nat.succ_eq_add_one, ← hplaces, Nat.pow_add,
        ← hreads.value, hscaled.value, Nat.mul_assoc, Nat.mul_comm (10 ^ zeros)]

end Decimal

/-! ### Shortest text -/

namespace Magnitude

theorem ofDecimal_of_readsBack {m : Magnitude} {d : Decimal} (h : m.readsBack d = true) :
    Binary64.ofDecimal false d = .finite false m := beq_iff_eq.1 h

theorem readsBack_of_shortened? {m : Magnitude} {n : Nat} {d : Decimal}
    (h : m.shortened? n = some d) : m.readsBack d = true := by
  unfold shortened? at h
  dsimp only at h
  split at h
  · rename_i hbelow
    cases h
    exact (Bool.and_eq_true_iff.1 hbelow).1
  · split at h
    · rename_i habove
      cases h
      exact habove
    · cases h

/-- The exact decimal reads back. -/
theorem readsBack_exact (m : Magnitude) : m.readsBack m.exact = true := by
  have hexact : ∀ e, e = 1074 → m.exact = ⟨m.units * 5 ^ e, -(e : Nat)⟩ := by
    rintro _ rfl
    rfl
  have hone : ∀ e : Nat, e = 1074 → one = 2 ^ e := by
    rintro _ rfl
    rfl
  obtain ⟨e, he⟩ : ∃ e, e = 1074 := ⟨1074, rfl⟩
  have hunits : m.units * 5 ^ e * 2 ^ e * 1 = m.units * 10 ^ e := by
    rw [Nat.mul_one, Nat.mul_assoc, ← Nat.mul_pow]
  refine beq_iff_eq.2 ?_
  rw [Binary64.ofDecimal_eq, hexact e he, hone e he, Decimal.num_neg_natCast,
    Decimal.den_neg_natCast]
  refine Binary64.ofQuotient_of_units ?_ false
  rw [significant_congr (Nat.pow_pos (by decide)) Nat.one_pos hunits,
    significant_of_spacing_dvd m.spacing_dvd]

theorem readsBack_shortest (m : Magnitude) : m.readsBack m.shortest = true := by
  rw [shortest]
  generalize hfound : List.findSome? _ _ = found
  cases found with
  | none => exact m.readsBack_exact
  | some d =>
    obtain ⟨k, -, hk⟩ := List.exists_of_findSome?_eq_some hfound
    exact readsBack_of_shortened? hk

end Magnitude

namespace Binary64

theorem ofDecimal_shortest (negative : Bool) (m : Magnitude) :
    ofDecimal negative m.shortest = finite negative m := by
  have hpositive := Magnitude.ofDecimal_of_readsBack m.readsBack_shortest
  rw [ofDecimal_eq] at hpositive ⊢
  exact ofQuotient_eq_finite hpositive negative

end Binary64

/-! ### Literals -/

namespace Literal

theorem isSign_signText (negative : Bool) : IsSign (Binary64.signText negative) negative := by
  cases negative with
  | true => exact .minus
  | false => exact .absent

/-- The text of a number is a literal that denotes it. -/
theorem value?_toText (x : Binary64) : value? x.toText.toList = some x := by
  cases x with
  | nan => decide +kernel
  | infinite s => cases s <;> decide +kernel
  | finite s m =>
    rw [Binary64.toText, String.toList_ofList]
    split
    · rename_i hzero
      obtain rfl : m = .zero := Magnitude.eq_of_units hzero
      cases s <;> decide +kernel
    · obtain ⟨n, hn, htext, d, hd, hsame⟩ := m.shortest.exists_numeral
      rw [htext, value?_numeral (isSign_signText s) hn hd, Binary64.ofDecimal_congr hsame,
        Binary64.ofDecimal_shortest]

end Literal

theorem Binary64.toText_injective : Function.Injective Binary64.toText := fun x y h => by
  have hx := Literal.value?_toText x
  rw [h, Literal.value?_toText y] at hx
  exact (Option.some.inj hx).symm

end QuantumCircuit

/-!
# Rounding to 53 significant bits

Exact quotients of natural numbers are rounded to the nearest whole number, ties to the even
one (`nearestEven`), and to the nearest whole number of at most 53 significant bits
(`significant`).  The numbers of at most 53 bits around `u` are the multiples of `spacing u`;
`spacing_dvd_significant` says that rounding always lands on one of them.
-/

namespace QuantumCircuit

-- Powers with natural exponents are those of the core library, whatever else is imported.
attribute [local instance (2000)] instPowNat

namespace Rounding

/-- The whole number nearest to `num / den`; of two equally near, the even one. -/
def nearestEven (num den : Nat) : Nat :=
  let rest := 2 * (num % den)
  if rest < den ∨ (rest = den ∧ num / den % 2 = 0) then num / den else num / den + 1

/-- Distance between neighbouring numbers of at most 53 significant bits around `u`. -/
def spacing (u : Nat) : Nat := 2 ^ (u.log2 - 52)

/-- The number of at most 53 significant bits nearest to `num / den`; of two equally near, the
one with the even multiple of the spacing. -/
def significant (num den : Nat) : Nat :=
  nearestEven num (den * spacing (num / den)) * spacing (num / den)

theorem le_nearestEven (num den : Nat) : num / den ≤ nearestEven num den := by
  simp only [nearestEven]; split <;> omega

theorem nearestEven_le (num den : Nat) : nearestEven num den ≤ num / den + 1 := by
  simp only [nearestEven]; split <;> omega

/-- A whole quotient is its own rounding. -/
theorem nearestEven_mul {den : Nat} (k : Nat) (h : 0 < den) : nearestEven (k * den) den = k := by
  simp [nearestEven, Nat.mul_div_cancel k h, h]

theorem spacing_pos (u : Nat) : 0 < spacing u := Nat.pow_pos (by decide)

/-- Below `2 ^ (53 + s)` the spacing divides `2 ^ s`. -/
theorem spacing_dvd_of_lt {u s : Nat} (h : u < 2 ^ (53 + s)) : spacing u ∣ 2 ^ s := by
  apply Nat.pow_dvd_pow
  by_cases hu : u = 0
  · simp [hu]
  · have := (Nat.log2_lt hu).2 h
    omega

theorem div_spacing_lt (u : Nat) : u / spacing u < 2 ^ (53 : Nat) := by
  rw [Nat.div_lt_iff_lt_mul (spacing_pos u), spacing, ← Nat.pow_add]
  exact Nat.lt_of_lt_of_le Nat.lt_log2_self (Nat.pow_le_pow_right (by decide) (by omega))

/-- Rounding yields a number of at most 53 significant bits. -/
theorem spacing_dvd_significant (num den : Nat) :
    spacing (significant num den) ∣ significant num den := by
  simp only [significant]
  have hk : nearestEven num (den * spacing (num / den)) ≤ 2 ^ (53 : Nat) := by
    have h₁ := nearestEven_le num (den * spacing (num / den))
    have h₂ := div_spacing_lt (num / den)
    rw [Nat.div_div_eq_div_mul] at h₂
    omega
  generalize nearestEven num (den * spacing (num / den)) = k at hk
  simp only [spacing]
  generalize (num / den).log2 - 52 = s
  by_cases h : k = 2 ^ (53 : Nat)
  · subst h
    rw [← Nat.pow_add, Nat.log2_two_pow]
    exact Nat.pow_dvd_pow 2 (by omega)
  · refine Nat.dvd_trans (spacing_dvd_of_lt ?_) (Nat.dvd_mul_left _ _)
    rw [Nat.pow_add]
    exact Nat.mul_lt_mul_of_pos_right (by omega) (Nat.pow_pos (by decide))

/-- A number that has at most 53 significant bits is its own rounding. -/
theorem significant_of_spacing_dvd {u : Nat} (h : spacing u ∣ u) : significant u 1 = u := by
  obtain ⟨k, hk⟩ := h
  have hu : nearestEven u (spacing u) = k := by
    conv => lhs; arg 1; rw [hk, Nat.mul_comm]
    exact nearestEven_mul k (spacing_pos u)
  simp only [significant, Nat.div_one, Nat.one_mul, hu]
  rw [Nat.mul_comm]
  exact hk.symm

end Rounding

end QuantumCircuit

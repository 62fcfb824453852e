import QuantumCircuit.Angle.Writing
import QuantumCircuit.Proofs.Angle.Grammar
import QuantumCircuit.Proofs.Letters
import QuantumCircuit.Proofs.Number.Nearness

/-!
# Texts of angles read back

An angle is written as a multiple of π or as a number.  Both texts have no blanks and no capitals,
so they are read as they stand.

* `Angle.piFraction_read_back` : the text of a multiple of π is no literal, falls into the pieces it
  was made of and no others, and is read as the product and the quotient of these numbers;
* `Angle.read?_toString` : the text of a finite number is read as that number.
-/

namespace QuantumCircuit

-- The members of a list are checked one by one, whatever else is imported.
attribute [local instance (2000)] List.decidableBAll

-- Powers with natural exponents are those of the core library, whatever else is imported.
attribute [local instance (2000)] instPowNat

open Text

namespace Text

variable {text : List Char}

/-- A text without blanks is trimmed already. -/
theorem trim_eq_self (h : ∀ c ∈ text, isBlank c = false) : trim text = text := by
  have hdrop : ∀ {text : List Char}, (∀ c ∈ text, isBlank c = false) → dropBlanks text = text := by
    intro text h
    cases text with
    | nil => rfl
    | cons c rest =>
      rw [dropBlanks, List.dropWhile_cons_of_neg]
      rw [h c List.mem_cons_self]
      exact Bool.false_ne_true
  rw [trim, hdrop h, hdrop fun c hc => h c (List.mem_reverse.1 hc), List.reverse_reverse]

/-- What the texts of angles are made of beside digits. -/
def marks : List Char := ['-', '.', '*', '/', 'p', 'i']

theorem isBlank_of_mem_marks {c : Char} (h : c.isDigit = true ∨ c ∈ marks) : isBlank c = false := by
  have hall : ∀ c ∈ marks, isBlank c = false := by decide
  exact h.elim isBlank_of_isDigit (hall c)

theorem toLower_of_mem_marks {c : Char} (h : c.isDigit = true ∨ c ∈ marks) : c.toLower = c := by
  have hall : ∀ c ∈ marks, c.toLower = c := by decide
  exact h.elim toLower_of_isDigit (hall c)

end Text

namespace Literal

/-- The digits of a number are a literal for it. -/
theorem value?_toDigits (k : Nat) : value? (Nat.toDigits 10 k) = some (.ofNat k) := by
  have hreads := Decimal.reads_toDigits k
  have hnumeral := value?_numeral .absent hreads.wellFormed
    (Decimal.value?_of_whole Nat.toDigits_ne_nil)
  rw [List.append_nil, List.length_nil, hreads.value, Binary64.ofDecimal_eq,
    Decimal.num_neg_natCast, Decimal.den_neg_natCast, Nat.pow_zero] at hnumeral
  rw [Numeral.toText, List.nil_append, if_neg Bool.false_ne_true, List.append_nil] at hnumeral
  exact hnumeral

end Literal

theorem Binary64.isZero_ofNat {k : Nat} (hk : 0 < k) : (Binary64.ofNat k).isZero = false := by
  have hpos : 2 ^ (0 : Nat) ≤ k * Magnitude.one / 1 := by
    rw [Nat.div_one]
    exact Nat.mul_pos hk Magnitude.one_pos
  have hsignificant := Rounding.two_pow_le_significant hpos
  rw [ofNat]
  rcases Nat.lt_or_ge (Rounding.significant (k * Magnitude.one) 1) Magnitude.limit with hlt | hge
  · obtain ⟨m, hm, hunits⟩ := ofQuotient_of_lt hlt false
    rw [hm]
    exact beq_false_of_ne (by omega)
  · rw [ofQuotient_of_limit_le hge]
    rfl

namespace Angle

/-- The pieces that the text of `k * pi / divisor` is made of. -/
def fractionParts (k : Int) (divisor : Nat) : PiParts where
  negative := decide (k < 0)
  coefficient := if k.natAbs = 1 then [] else Nat.toDigits 10 k.natAbs
  divisor := if divisor = 1 then none else some (Nat.toDigits 10 divisor)

/-- The number `k * pi / divisor`, rounded after every step. -/
def fractionValue (k : Int) (divisor : Nat) : Binary64 :=
  let product := .ofNat k.natAbs * .pi
  let quotient := if divisor = 1 then product else product / .ofNat divisor
  if k < 0 then -quotient else quotient

variable {k : Int} {divisor : Nat}

theorem toList_piFraction (k : Int) (divisor : Nat) :
    (piFraction k divisor).toList = (if (fractionParts k divisor).negative then ['-'] else []) ++
      ((fractionParts k divisor).coefficient ++ ((if k.natAbs = 1 then [] else ['*']) ++
        'p' :: 'i' :: if divisor = 1 then [] else '/' :: Nat.toDigits 10 divisor)) := by
  have hnat : ∀ n : Nat, (toString n).toList = Nat.toDigits 10 n := fun n => Nat.toList_repr
  simp only [piFraction, fractionParts]
  split <;> split <;> split <;> simp_all [Text.toString_string]

/-- The text of a multiple of π falls into the pieces that it was made of. -/
theorem matches_piFraction (k : Int) (divisor : Nat) :
    (fractionParts k divisor).Matches Char.isDigit (piFraction k divisor).toList := by
  have hdigits : ∀ n : Nat, IsNumeral Char.isDigit (Nat.toDigits 10 n) := fun n =>
    ⟨_, [], (Decimal.reads_toDigits n).isDigit, nofun, .inl rfl⟩
  rw [toList_piFraction]
  refine .mk ?_ ?_ ?_
  · simp only [fractionParts]
    split
    · exact ⟨[], [], nofun, nofun, .inl rfl⟩
    · exact hdigits _
  · split
    · exact ⟨[], [], nofun, nofun, .inl rfl⟩
    · exact ⟨[], [], nofun, nofun, .inr rfl⟩
  · simp only [fractionParts]
    split
    · exact .absent
    · have hnumeral := hdigits divisor
      have hfirst := (Decimal.reads_toDigits divisor).isDigit
      obtain ⟨c, rest, hcons⟩ := List.exists_cons_of_ne_nil (Nat.toDigits_ne_nil (n := divisor))
      rw [hcons] at hnumeral hfirst ⊢
      have hstroke : IsStroke ['/'] := ⟨[], [], nofun, nofun, rfl⟩
      exact .present hstroke (hfirst c List.mem_cons_self) hnumeral

theorem mem_piFraction {c : Char} (hc : c ∈ (piFraction k divisor).toList) :
    c.isDigit = true ∨ c ∈ marks := by
  have hsign : ∀ negative : Bool, (if negative then ['-'] else []) ⊆ marks := by decide
  have hdigits : ∀ {n : Nat}, c ∈ Nat.toDigits 10 n → c.isDigit = true ∨ c ∈ marks :=
    fun hc => .inl ((Decimal.reads_toDigits _).isDigit c hc)
  rw [toList_piFraction] at hc
  simp only [fractionParts, List.mem_append, List.mem_cons] at hc
  rcases hc with hc | hc | hc | rfl | rfl | hc
  · exact .inr (hsign _ hc)
  · split at hc
    · cases hc
    · exact hdigits hc
  · split at hc
    · cases hc
    · rw [List.mem_singleton.1 hc]
      exact .inr (by decide)
  · exact .inr (by decide)
  · exact .inr (by decide)
  · split at hc
    · cases hc
    · rcases List.mem_cons.1 hc with rfl | hc
      · exact .inr (by decide)
      · exact hdigits hc

theorem trim_piFraction : trim (piFraction k divisor).toList = (piFraction k divisor).toList :=
  trim_eq_self fun _ hc => isBlank_of_mem_marks (mem_piFraction hc)

theorem toLower_piFraction :
    (piFraction k divisor).toList.map Char.toLower = (piFraction k divisor).toList := by
  rw [List.map_congr_left fun c hc => toLower_of_mem_marks (mem_piFraction hc), List.map_id']

theorem value?_fractionParts (hd : 0 < divisor) :
    (fractionParts k divisor).value? = some (fractionValue k divisor) := by
  have hfactor : (fractionParts k divisor).factor? = some (.ofNat k.natAbs) := by
    simp only [PiParts.factor?, fractionParts]
    split
    · rename_i hone
      rw [if_pos rfl, hone]
      rfl
    · rw [if_neg Nat.toDigits_ne_nil, Literal.value?_toDigits]
  have hquotient : ∀ product, (fractionParts k divisor).quotient? product =
      some (if divisor = 1 then product else product / .ofNat divisor) := by
    intro product
    simp only [PiParts.quotient?, fractionParts]
    split
    · rename_i hnone
      split at hnone
      · rename_i hone
        rw [if_pos hone]
      · cases hnone
    · rename_i text hsome
      split at hsome
      · cases hsome
      · rename_i hone
        cases hsome
        rw [if_neg hone, Literal.value?_toDigits, Option.bind_some, Binary64.isZero_ofNat hd,
          if_neg Bool.false_ne_true]
  rw [PiParts.value?, hfactor, Option.bind_some, hquotient, Option.map_some]
  simp only [fractionValue, fractionParts, decide_eq_true_eq]

/-- The text of a multiple of π is read as that multiple, computed step by step. -/
theorem read?_piFraction (k : Int) (hd : 0 < divisor) :
    read? (piFraction k divisor) = some (fractionValue k divisor) := by
  have hmatches := matches_piFraction k divisor
  rw [← toLower_piFraction, ← trim_piFraction] at hmatches
  rw [read?_of_matches hmatches, value?_fractionParts hd]

/-! ### The multiple that is read -/

/-- The multiple of π that was written; a coefficient and a divisor of one are left out. -/
def fractionTerm (k : Int) (divisor : Nat) : PiTerm where
  negative := decide (k < 0)
  coefficient := if k.natAbs = 1 then none else some ⟨k.natAbs, 0⟩
  divisor := if divisor = 1 then none else some ⟨divisor, 0⟩

theorem numeral_toDigits (n : Nat) :
    (⟨Nat.toDigits 10 n, false, []⟩ : Numeral).WellFormed ∧
      (⟨Nat.toDigits 10 n, false, []⟩ : Numeral).value? = some ⟨n, 0⟩ := by
  have hreads := Decimal.reads_toDigits n
  refine ⟨hreads.wellFormed, ?_⟩
  rw [Decimal.value?_of_whole Nat.toDigits_ne_nil, List.append_nil, hreads.value]
  rfl

theorem coefficient?_toDigits (n : Nat) :
    PiTerm.coefficient? ⟨Nat.toDigits 10 n, false, []⟩ = some (some ⟨n, 0⟩) := by
  rw [PiTerm.coefficient?, if_neg (by simp [Numeral.isEmpty, Nat.toDigits_ne_nil]),
    (numeral_toDigits n).2]
  rfl

theorem divisor?_toDigits (n : Nat) :
    PiTerm.divisor? ('/' :: Nat.toDigits 10 n) = some (some ⟨n, 0⟩) := by
  have hstroke : IsStroke ['/'] := ⟨[], [], nofun, nofun, rfl⟩
  have hdivisor := PiTerm.divisor?_stroke hstroke (numeral_toDigits n).1 Nat.toDigits_ne_nil
  rw [(numeral_toDigits n).2, Numeral.toText, if_neg Bool.false_ne_true, List.append_nil]
    at hdivisor
  exact hdivisor

/-- The text of a multiple of π is recognised as the multiple that was written. -/
theorem term_read?_piFraction (k : Int) (divisor : Nat) :
    PiTerm.read? (piFraction k divisor).toList = some (fractionTerm k divisor) := by
  have hnumeral : (⟨(fractionParts k divisor).coefficient, false, []⟩ : Numeral).WellFormed ∧
      PiTerm.coefficient? ⟨(fractionParts k divisor).coefficient, false, []⟩ =
        some (fractionTerm k divisor).coefficient := by
    simp only [fractionParts, fractionTerm]
    split
    · exact ⟨⟨nofun, nofun, fun _ => rfl⟩, rfl⟩
    · exact ⟨(numeral_toDigits _).1, coefficient?_toDigits _⟩
  have hstar : IsStar (if k.natAbs = 1 then [] else ['*']) := by
    split
    · exact ⟨[], [], nofun, nofun, .inl rfl⟩
    · exact ⟨[], [], nofun, nofun, .inr rfl⟩
  have htail : PiTerm.divisor? (if divisor = 1 then [] else '/' :: Nat.toDigits 10 divisor) =
      some (fractionTerm k divisor).divisor := by
    simp only [fractionTerm]
    split
    · rfl
    · exact divisor?_toDigits divisor
  have hread := PiTerm.read?_append (fractionParts k divisor).negative hnumeral.1 hstar
    (if divisor = 1 then [] else '/' :: Nat.toDigits 10 divisor)
  rw [hnumeral.2, htail, Numeral.toText, if_neg Bool.false_ne_true, List.append_nil] at hread
  rw [toList_piFraction, hread]
  rfl

/-- The text of a multiple of π, read back.  It is no literal and has no blanks around it and no
capitals.  Whatever characters count as digits, it falls into the sign, the coefficient and the
divisor that were written, and into no other pieces, where a coefficient and a divisor of one are
left out; and it is read as these.  Its value is the product of the number nearest to the
coefficient with π, divided by the divisor unless that is one, with the sign put on last.  The
divisor is exact. -/
theorem piFraction_read_back (k : Int) {divisor : Nat} (hd : 0 < divisor) :
    (∀ x, ¬ Literal.Denotes (trim (piFraction k divisor).toList) x) ∧
    (trim (piFraction k divisor).toList = (piFraction k divisor).toList ∧
      ∀ lower, Lowercased (piFraction k divisor).toList lower →
        lower = (piFraction k divisor).toList) ∧
    (∀ digit, DigitClass digit → ∀ p : PiParts,
      p.Matches digit (piFraction k divisor).toList ↔ p = fractionParts k divisor) ∧
    PiTerm.read? (piFraction k divisor).toList = some (fractionTerm k divisor) ∧
    read? (piFraction k divisor) = some (fractionValue k divisor) ∧
    (k.natAbs ≤ 2 ^ (64 : Nat) → ∃ c : Magnitude, Binary64.ofNat k.natAbs = .finite false c ∧
      ∀ c' : Magnitude, ((c.units : Int) - k.natAbs * Magnitude.one).natAbs ≤
        ((c'.units : Int) - k.natAbs * Magnitude.one).natAbs) ∧
    (divisor < 2 ^ (53 : Nat) → ∃ c : Magnitude, Binary64.ofNat divisor = .finite false c ∧
      c.units = divisor * Magnitude.one) := by
  have hmatches := matches_piFraction k divisor
  have hlower := lowercased_map (piFraction k divisor).toList
  rw [toLower_piFraction] at hlower
  refine ⟨?_, ⟨trim_piFraction, fun lower h => ?_⟩, fun digit hdigit p => ⟨fun hp => ?_, ?_⟩,
    term_read?_piFraction k divisor, read?_piFraction k hd, Binary64.exists_ofNat_nearest,
    Binary64.exists_ofNat_eq⟩
  · rw [trim_piFraction]
    exact hmatches.not_denotes hlower
  · rw [h.eq_map (.inr fun c hc => ?_), toLower_piFraction]
    rw [toLower_piFraction] at hc
    exact hmatches.not_foreign hc
  · exact hp.unique hdigit (hmatches.of_isDigit hdigit)
  · rintro rfl
    exact hmatches.of_isDigit hdigit

/-- The least numerator of 64 bits over six. -/
theorem piFraction_read_back_least :
    0 < 6 ∧ piFraction (-9223372036854775808) 6 = "-9223372036854775808*pi/6" ∧
      (∀ x, ¬ Literal.Denotes (trim "-9223372036854775808*pi/6".toList) x) ∧
      (∀ p : PiParts, p.Matches Char.isDigit "-9223372036854775808*pi/6".toList ↔
        p = ⟨true, "9223372036854775808".toList, some "6".toList⟩) ∧
      PiTerm.read? "-9223372036854775808*pi/6".toList =
        some ⟨true, some ⟨9223372036854775808, 0⟩, some ⟨6, 0⟩⟩ ∧
      read? "-9223372036854775808*pi/6" =
        some (-(.ofNat 9223372036854775808 * .pi / .ofNat 6)) := by
  have htext : piFraction (-9223372036854775808) 6 = "-9223372036854775808*pi/6" := by
    decide +kernel
  have hparts : fractionParts (-9223372036854775808) 6 =
      ⟨true, "9223372036854775808".toList, some "6".toList⟩ := by
    rw [fractionParts, PiParts.mk.injEq]
    decide +kernel
  obtain ⟨hliteral, -, hmatches, hterm, hvalue, -⟩ :=
    piFraction_read_back (-9223372036854775808) (by decide : 0 < 6)
  rw [htext] at hliteral hmatches hterm hvalue
  rw [hparts] at hmatches
  exact ⟨by decide, htext, hliteral, hmatches _ digitClass_isDigit, hterm, hvalue⟩

/-- The text of a finite number is read as that number. -/
theorem read?_toString {v : Binary64} (hv : v.isFinite = true) :
    read? (toString v) = some v := by
  have hblank : ∀ c ∈ (toString v).toList, isBlank c = false := by
    cases v with
    | infinite s => cases hv
    | nan => cases hv
    | finite s m =>
      refine fun c hc => isBlank_of_mem_marks ((Binary64.mem_toText_finite hc).imp_right ?_)
      rintro (rfl | rfl) <;> decide
  have hdenotes : Literal.Denotes (trim (toString v).toList) v := by
    rw [trim_eq_self hblank]
    exact Literal.value?_eq_some_iff.1 (Literal.value?_toText v)
  rw [read?_of_denotes hdenotes, if_pos hv]

end Angle

end QuantumCircuit

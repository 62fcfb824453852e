import QuantumCircuit.Text.Blank

/-!
# Small letters

Putting a text in small letters changes ASCII capitals and leaves digits, blanks and signs as they
are.  Beyond ASCII it may do more than `Char.toLower` does, also make one letter of several or
several of one, but what it makes there is never a text of ASCII small letters that an angle is
written with.  `Lowercased` says no more than this, and that is enough: where every character has
a part in an angle, all ways to lower a text agree (`Lowercased.eq_map`).
-/

namespace QuantumCircuit

-- The members of a list are checked one by one, whatever else is imported.
attribute [local instance (2000)] List.decidableBAll

namespace Text

variable {c : Char} {text lower : List Char}

/-- Only ASCII capitals are changed. -/
theorem toLower_cases (c : Char) :
    c.toLower = c ∨ 65 ≤ c.toNat ∧ c.toNat ≤ 90 ∧ c.toLower.toNat = c.toNat + 32 := by
  have hc : c.toNat = c.val.toNat := rfl
  unfold Char.toLower
  split
  · rename_i h
    obtain ⟨hlow, hhigh⟩ := id h
    simp only [UInt32.le_iff_toNat_le, Char.reduceVal, UInt32.toNat_add, UInt32.reduceToNat,
      UInt32.reduceSub, Char.toNat] at hlow hhigh ⊢
    omega
  · exact .inl rfl

theorem toLower_eq_e_iff : c.toLower = 'e' ↔ c = 'e' ∨ c = 'E' := by
  constructor
  · intro h
    refine (toLower_cases c).imp (fun hc => hc.symm.trans h) fun ⟨_, _, hc⟩ => ?_
    have hnat : 'e'.toNat = 'E'.toNat + 32 := rfl
    rw [h] at hc
    exact Char.toNat_inj.1 (by omega)
  · rintro (rfl | rfl) <;> rfl

theorem isDigit_iff : c.isDigit = true ↔ 48 ≤ c.toNat ∧ c.toNat ≤ 57 := by
  simp only [Char.isDigit, Bool.and_eq_true, decide_eq_true_eq, Char.reduceVal,
    UInt32.le_iff_toNat_le, UInt32.reduceToNat, ge_iff_le]
  rfl

theorem toLower_of_isDigit (h : c.isDigit = true) : c.toLower = c := by
  rw [isDigit_iff] at h
  exact (toLower_cases c).resolve_right fun ⟨hlow, _⟩ => by omega

theorem toLower_of_le (h : 128 ≤ c.toNat) : c.toLower = c :=
  (toLower_cases c).resolve_right fun ⟨_, hhigh, _⟩ => by omega

theorem isBlank_eq_false_iff :
    isBlank c = false ↔ ∀ range ∈ blankRanges, range.1 ≤ c.toNat → range.2 < c.toNat := by
  simp only [isBlank, List.any_eq_false, Bool.and_eq_true, decide_eq_true_eq, not_and,
    Nat.not_le]

theorem isBlank_of_isDigit (h : c.isDigit = true) : isBlank c = false := by
  obtain ⟨hlow, hhigh⟩ := isDigit_iff.1 h
  refine isBlank_eq_false_iff.2 fun range hrange => ?_
  have hdigits : ∀ range ∈ blankRanges, range.2 < 48 ∨ 57 < range.1 := by decide
  have := hdigits range hrange
  omega

/-- The character has no part in an angle written in small letters. -/
structure Foreign (c : Char) : Prop where
  not_isBlank : isBlank c = false
  not_isDigit : c.isDigit = false
  not_mem : c ∉ ['-', '.', '*', '/', 'p', 'i']

/-- The second text is the first in small letters: ASCII characters and blanks one by one, and any
other character as some text with a character in it that is foreign to angles. -/
inductive Lowercased : List Char → List Char → Prop
  | nil : Lowercased [] []
  | plain (c : Char) {text lower : List Char} : c.toNat < 128 ∨ isBlank c = true →
      Lowercased text lower → Lowercased (c :: text) (c.toLower :: lower)
  | other (c : Char) (letters : List Char) {text lower : List Char} :
      128 ≤ c.toNat → isBlank c = false → (∃ d ∈ letters, Foreign d) →
      Lowercased text lower → Lowercased (c :: text) (letters ++ lower)

theorem foreign_of_le (h : 128 ≤ c.toNat) (hblank : isBlank c = false) : Foreign c := by
  refine ⟨hblank, ?_, fun hc => ?_⟩
  · rw [← Bool.not_eq_true, isDigit_iff]
    omega
  · have hlt : ∀ d ∈ ['-', '.', '*', '/', 'p', 'i'], d.toNat < 128 := by decide
    exact absurd (hlt c hc) (by omega)

/-- Lowering ASCII letters only is one way to do it. -/
theorem lowercased_map (text : List Char) : Lowercased text (text.map Char.toLower) := by
  induction text with
  | nil => exact .nil
  | cons c text ih =>
    by_cases hplain : c.toNat < 128 ∨ isBlank c = true
    · exact .plain c hplain ih
    · rw [not_or, Nat.not_lt, Bool.not_eq_true] at hplain
      obtain ⟨hle, hblank⟩ := hplain
      rw [List.map_cons, toLower_of_le hle]
      exact .other c [c] hle hblank ⟨c, List.mem_singleton_self c, foreign_of_le hle hblank⟩ ih

/-- There is only one way to lower an ASCII text. -/
theorem Lowercased.eq_map_of_ascii (h : Lowercased text lower)
    (hascii : ∀ c ∈ text, c.toNat < 128) : lower = text.map Char.toLower := by
  induction h with
  | nil => rfl
  | plain c _ _ ih => rw [List.map_cons, ih fun d hd => hascii d (List.mem_cons_of_mem _ hd)]
  | other c _ hle => exact absurd (hascii c List.mem_cons_self) (Nat.not_lt.2 hle)

/-- All ways to lower a text agree if one of them leads to nothing foreign. -/
theorem Lowercased.eq_map (h : Lowercased text lower)
    (hnone : (∀ c ∈ lower, ¬Foreign c) ∨ ∀ c ∈ text.map Char.toLower, ¬Foreign c) :
    lower = text.map Char.toLower := by
  induction h with
  | nil => rfl
  | plain c _ _ ih =>
    rw [List.map_cons, ih (hnone.imp (fun h d hd => h d (List.mem_cons_of_mem _ hd))
      (fun h d hd => h d (List.mem_cons_of_mem _ hd)))]
  | other c letters hle hblank hforeign _ _ =>
    obtain ⟨d, hd, hd'⟩ := hforeign
    rcases hnone with hnone | hnone
    · exact absurd hd' (hnone d (List.mem_append_left _ hd))
    · have hc := hnone c.toLower List.mem_cons_self
      rw [toLower_of_le hle] at hc
      exact absurd (foreign_of_le hle hblank) hc

end Text

end QuantumCircuit

import Mathlib.Tactic.ByContra
import QuantumCircuit.Number.Literal
import QuantumCircuit.Proofs.Number.Numerals
import QuantumCircuit.Proofs.Text.Lowercase

/-!
# The grammar of number literals

```
literal  ::= [sign] ("inf" | "infinity" | "nan" | number)      in capitals or small letters
number   ::= numeral [("e" | "E") [sign] digit+]
numeral  ::= digit+ | digit+ "." digit* | digit* "." digit+
sign     ::= "+" | "-"
```

`Literal.Denotes` is this grammar with the number that each text stands for, and
`Literal.value?_eq_some_iff` says that literals are read by it, and nothing else is.
-/

namespace QuantumCircuit

-- The members of a list are checked one by one, whatever else is imported.
attribute [local instance (2000)] List.decidableBAll

open Text

namespace Literal

variable {text rest sign : List Char} {negative : Bool} {x : Binary64}

/-- A sign that may be left out. -/
inductive IsSign : List Char → Bool → Prop
  | absent : IsSign [] false
  | plus : IsSign ['+'] false
  | minus : IsSign ['-'] true

/-- An exponent that may be left out. -/
inductive IsExponent : List Char → Int → Prop
  | absent : IsExponent [] 0
  | present {e : Char} {sign digits : List Char} {negative : Bool} :
      e = 'e' ∨ e = 'E' → IsSign sign negative → digits ≠ [] →
      (∀ c ∈ digits, c.isDigit = true) →
      IsExponent (e :: (sign ++ digits))
        (Binary64.signed negative (Nat.ofDigitChars 10 digits 0))

/-- The text is a literal for the number. -/
inductive Denotes : List Char → Binary64 → Prop
  | infinite {sign name : List Char} {negative : Bool} : IsSign sign negative →
      name.map Char.toLower = "inf".toList ∨ name.map Char.toLower = "infinity".toList →
      Denotes (sign ++ name) (.infinite negative)
  | nan {sign name : List Char} {negative : Bool} : IsSign sign negative →
      name.map Char.toLower = "nan".toList → Denotes (sign ++ name) .nan
  | number {sign exponent : List Char} {negative : Bool} {n : Numeral} {d : Decimal} {e : Int} :
      IsSign sign negative → n.WellFormed → n.value? = some d → IsExponent exponent e →
      Denotes (sign ++ (n.toText ++ exponent)) (.ofDecimal negative ⟨d.digits, d.exponent + e⟩)

/-! ### Signs -/

theorem splitSign_spec (text : List Char) :
    ∃ sign, IsSign sign (splitSign text).1 ∧ sign ++ (splitSign text).2 = text := by
  unfold splitSign
  split
  · exact ⟨_, .minus, rfl⟩
  · exact ⟨_, .plus, rfl⟩
  · exact ⟨_, .absent, rfl⟩

theorem splitSign_of_stops (hsign : IsSign sign negative)
    (hrest : Stops (fun c => c == '-' || c == '+') rest) :
    splitSign (sign ++ rest) = (negative, rest) := by
  cases hsign with
  | plus => rfl
  | minus => rfl
  | absent =>
    rw [List.nil_append]
    unfold splitSign
    split
    · exact absurd (stops_cons.1 hrest) (by decide)
    · exact absurd (stops_cons.1 hrest) (by decide)
    · rfl

/-! ### Names -/

theorem named?_eq_some_iff : named? negative text = some x ↔
    (text.map Char.toLower = "inf".toList ∨ text.map Char.toLower = "infinity".toList) ∧
        x = .infinite negative ∨
      text.map Char.toLower = "nan".toList ∧ x = .nan := by
  have hname : ∀ name : String, text.map Char.toLower = name.toList ↔
      String.ofList (text.map Char.toLower) = name := fun name => by
    rw [← String.toList_inj, String.toList_ofList]
  simp only [hname, named?]
  generalize String.ofList (text.map Char.toLower) = name
  split <;> simp_all [eq_comm]

/-- A text that begins with a digit or a point is no name. -/
theorem named?_of_digit {c : Char} (hc : c.isDigit = true ∨ c = '.') (rest : List Char) :
    named? negative (c :: rest) = none := by
  have hlower : c.toLower = c := by
    rcases hc with hc | rfl
    · exact toLower_of_isDigit hc
    · rfl
  have hne : c ≠ 'i' ∧ c ≠ 'n' := by
    constructor <;> rintro rfl <;> revert hc <;> decide
  rw [← Option.not_isSome_iff_eq_none, Option.isSome_iff_exists]
  rintro ⟨x, hx⟩
  rcases named?_eq_some_iff.1 hx with ⟨h | h, -⟩ | ⟨h, -⟩ <;>
    rw [List.map_cons, hlower] at h
  · exact hne.1 (List.cons_eq_cons.1 h).1
  · exact hne.1 (List.cons_eq_cons.1 h).1
  · exact hne.2 (List.cons_eq_cons.1 h).1

/-! ### Numbers -/

/-- A text that does not begin with a sign in small letters has no sign. -/
theorem splitSign_of_lower (hsign : IsSign sign negative) {lower : List Char}
    (hlower : rest.map Char.toLower = lower)
    (hstops : Stops (fun c => c == '-' || c == '+') lower) :
    splitSign (sign ++ rest) = (negative, rest) := by
  refine splitSign_of_stops hsign ?_
  subst hlower
  cases rest with
  | nil => exact stops_nil
  | cons c rest =>
    rw [List.map_cons, stops_cons, Bool.or_eq_false_iff, beq_eq_false_iff_ne,
      beq_eq_false_iff_ne] at hstops
    rw [stops_cons, Bool.or_eq_false_iff, beq_eq_false_iff_ne, beq_eq_false_iff_ne]
    refine ⟨?_, ?_⟩ <;> rintro rfl
    · exact hstops.1 rfl
    · exact hstops.2 rfl

/-- A text that begins with a digit or a point has no sign. -/
theorem splitSign_of_digit (hsign : IsSign sign negative)
    (hrest : ∀ c ∈ rest.head?, c.isDigit = true ∨ c = '.') :
    splitSign (sign ++ rest) = (negative, rest) := by
  refine splitSign_of_stops hsign fun c hc => ?_
  have hdigit := hrest c hc
  rw [Bool.or_eq_false_iff, beq_eq_false_iff_ne, beq_eq_false_iff_ne]
  constructor <;> rintro rfl <;> revert hdigit <;> decide

theorem exponent?_eq_some_iff {e : Int} : exponent? text = some e ↔ IsExponent text e := by
  constructor
  · intro h
    unfold exponent? at h
    split at h
    · cases h
      exact .absent
    · rename_i c rest
      obtain ⟨sign, hsign, hrest⟩ := splitSign_spec rest
      dsimp only at h
      generalize splitSign rest = parts at *
      obtain ⟨negative, digits⟩ := parts
      subst hrest
      split at h
      · cases h
      · rename_i hc
        split at h
        · cases h
        · rename_i hdigits
          cases h
          simp only [Bool.or_eq_true, List.isEmpty_iff, Bool.not_eq_true', not_or,
            Bool.not_eq_false, List.all_eq_true] at hdigits
          exact .present (toLower_eq_e_iff.1 (by simpa using hc)) hsign hdigits.1 hdigits.2
  · rintro (_ | ⟨hc, hsign, hne, hdigits⟩)
    · rfl
    · rename_i c sign digits negative
      have hsplit := splitSign_of_digit hsign fun d hd =>
        .inl (hdigits d (List.mem_of_mem_head? hd))
      simp [exponent?, toLower_eq_e_iff.2 hc, hsplit, hne, List.all_eq_true.2 hdigits]

/-- An exponent does not continue the numeral before it. -/
theorem IsExponent.endsBefore {e : Int} (h : IsExponent text e) (n : Numeral) :
    n.EndsBefore text := by
  cases h with
  | absent => exact ⟨stops_nil, fun _ => stops_nil⟩
  | present hc => rcases hc with rfl | rfl <;> exact ⟨stops_cons.2 rfl, fun _ => stops_cons.2 rfl⟩

theorem decimal?_eq_some_iff {d : Decimal} : decimal? text = some d ↔
    ∃ (n : Numeral) (exponent : List Char) (d' : Decimal) (e : Int), n.WellFormed ∧
      n.value? = some d' ∧ IsExponent exponent e ∧ text = n.toText ++ exponent ∧
      d = ⟨d'.digits, d'.exponent + e⟩ := by
  constructor
  · intro h
    obtain ⟨hn, -, htext⟩ := Numeral.read_spec text
    simp only [decimal?, Option.bind_eq_bind, Option.bind_eq_some_iff, Option.pure_def] at h
    obtain ⟨d', hd', e, he, h⟩ := h
    cases h
    exact ⟨_, _, d', e, hn, hd', exponent?_eq_some_iff.1 he, htext.symm, rfl⟩
  · rintro ⟨n, exponent, d', e, hn, hd', he, rfl, rfl⟩
    simp [decimal?, Numeral.read_toText hn (he.endsBefore n), hd', exponent?_eq_some_iff.2 he]

/-- A numeral begins with a digit or a point. -/
theorem digit_of_mem_head? {n : Numeral} {d : Decimal} (hn : n.WellFormed)
    (hd : n.value? = some d) (rest : List Char) :
    ∃ c tail, n.toText ++ rest = c :: tail ∧ (c.isDigit = true ∨ c = '.') := by
  obtain ⟨whole, point, fraction⟩ := n
  cases whole with
  | cons c whole => exact ⟨c, _, rfl, .inl (hn.isDigit_whole c List.mem_cons_self)⟩
  | nil =>
    cases point with
    | true => exact ⟨'.', _, rfl, .inr rfl⟩
    | false =>
      obtain rfl : fraction = [] := hn.fraction_eq_nil rfl
      cases hd

/-- Literals are read by their grammar. -/
theorem value?_eq_some_iff : value? text = some x ↔ Denotes text x := by
  have hvalue : ∀ text, value? text = (named? (splitSign text).1 (splitSign text).2).or
      ((decimal? (splitSign text).2).map (.ofDecimal (splitSign text).1)) := fun text => by
    rw [value?]
    simp
  constructor
  · intro h
    obtain ⟨sign, hsign, htext⟩ := splitSign_spec text
    rw [hvalue] at h
    generalize splitSign text = parts at *
    obtain ⟨negative, rest⟩ := parts
    subst htext
    rcases Option.or_eq_some_iff.1 h with h | ⟨-, h⟩
    · rcases named?_eq_some_iff.1 h with ⟨hname, rfl⟩ | ⟨hname, rfl⟩
      · exact .infinite hsign hname
      · exact .nan hsign hname
    · obtain ⟨d, hd, rfl⟩ := Option.map_eq_some_iff.1 h
      obtain ⟨n, exponent, d', e, hn, hd', he, rfl, rfl⟩ := decimal?_eq_some_iff.1 hd
      exact .number hsign hn hd' he
  · intro h
    cases h with
    | infinite hsign hname =>
      have hsplit := hname.elim (fun h => splitSign_of_lower hsign h (by simp))
        fun h => splitSign_of_lower hsign h (by simp)
      rw [hvalue, hsplit, named?_eq_some_iff.2 (.inl ⟨hname, rfl⟩), Option.some_or]
    | nan hsign hname =>
      rw [hvalue, splitSign_of_lower hsign hname (by simp),
        named?_eq_some_iff.2 (.inr ⟨hname, rfl⟩), Option.some_or]
    | @number sign exponent negative n d e hsign hn hd he =>
      obtain ⟨c, tail, htext, hc⟩ := digit_of_mem_head? hn hd exponent
      have hdecimal := decimal?_eq_some_iff.2 ⟨n, exponent, d, e, hn, hd, he, rfl, rfl⟩
      rw [htext] at hdecimal ⊢
      have hsplit : splitSign (sign ++ c :: tail) = (negative, c :: tail) :=
        splitSign_of_digit hsign (by simpa using hc)
      rw [hvalue, hsplit, named?_of_digit hc, Option.none_or, hdecimal, Option.map_some]

/-- A numeral with a sign is a literal for the number that it writes. -/
theorem value?_numeral (hsign : IsSign sign negative) {n : Numeral} (hn : n.WellFormed)
    {d : Decimal} (hd : n.value? = some d) :
    value? (sign ++ n.toText) = some (.ofDecimal negative d) := by
  have hdenotes := Denotes.number hsign hn hd .absent
  rw [List.append_nil, Int.add_zero] at hdenotes
  exact value?_eq_some_iff.2 hdenotes

/-! ### Characters -/

/-- What a literal is made of beside digits, in small letters. -/
def letters : List Char := ['+', '-', '.', 'e', 'i', 'n', 'f', 't', 'y', 'a']

theorem IsSign.of_mem (h : IsSign sign negative) {c : Char} (hc : c ∈ sign) :
    c = '+' ∨ c = '-' := by
  cases h with
  | absent => cases hc
  | plus => exact .inl (List.mem_singleton.1 hc)
  | minus => exact .inr (List.mem_singleton.1 hc)

theorem Denotes.of_mem (h : Denotes text x) {c : Char} (hc : c ∈ text) :
    c.isDigit = true ∨ c.toLower ∈ letters := by
  have hsigned : ∀ {sign : List Char} {negative : Bool}, IsSign sign negative → c ∈ sign →
      c.toLower ∈ letters := by
    intro sign negative hsign hc
    rcases hsign.of_mem hc with rfl | rfl <;> decide
  have hnamed : ∀ {name lower : List Char}, name.map Char.toLower = lower → c ∈ name →
      (∀ d ∈ lower, d ∈ letters) → c.toLower ∈ letters := fun hname hc hall =>
    hall _ (hname ▸ List.mem_map_of_mem hc)
  cases h with
  | infinite hsign hname =>
    right
    rcases List.mem_append.1 hc with hc | hc
    · exact hsigned hsign hc
    · rcases hname with hname | hname <;> exact hnamed hname hc (by decide)
  | nan hsign hname =>
    right
    exact (List.mem_append.1 hc).elim (hsigned hsign) fun hc => hnamed hname hc (by decide)
  | @number _ _ _ n _ _ hsign hn _ he =>
    rcases List.mem_append.1 hc with hc | hc
    · exact .inr (hsigned hsign hc)
    rcases List.mem_append.1 hc with hc | hc
    · refine (hn.of_mem hc).imp_right ?_
      rintro rfl
      decide
    · cases he with
      | absent => cases hc
      | present he hsign _ hdigits =>
        rcases List.mem_cons.1 hc with rfl | hc
        · rcases he with rfl | rfl <;> exact .inr (by decide)
        · exact (List.mem_append.1 hc).elim (fun hc => .inr (hsigned hsign hc))
            fun hc => .inl (hdigits c hc)

/-- Literals are ASCII, and `p` is not in them. -/
theorem Denotes.ascii (h : Denotes text x) {c : Char} (hc : c ∈ text) :
    c.toNat < 128 ∧ c.toLower ≠ 'p' := by
  rcases h.of_mem hc with hdigit | hletter
  · constructor
    · have := isDigit_iff.1 hdigit
      omega
    · rw [toLower_of_isDigit hdigit]
      rintro rfl
      cases hdigit
  · have hall : ∀ d ∈ letters, d.toNat < 128 ∧ d ≠ 'p' := by decide
    refine ⟨?_, (hall _ hletter).2⟩
    by_contra hle
    rw [toLower_of_le (Nat.not_lt.1 hle)] at hletter
    exact hle (hall _ hletter).1

end Literal

end QuantumCircuit

import Mathlib.Tactic.ByContra
import QuantumCircuit.Angle.Reading
import QuantumCircuit.Proofs.Number.Literals

/-!
# The grammar of angles

```
angle    ::= number | multiple               between blanks, in capitals or small letters
multiple ::= ["-"] [numeral] blank* ["*"] blank* "pi" [blank* "/" blank* divisor]
```

The multiples of π are described the way a search for a pattern sees them: `PiParts.Matches` says
that a text falls into pieces, for any class of characters that counts as digits, and
`PiParts.value?` is what is made of the pieces that are kept.  A text falls into pieces in one way
only (`PiParts.Matches.unique`), so it does not matter in which order they are tried.

* `Angle.grammar_spec` : what an angle is and what its value is.
-/

namespace QuantumCircuit

-- The members of a list are checked one by one, whatever else is imported.
attribute [local instance (2000)] List.decidableBAll

open Text

/-! ### Pieces -/

/-- Digits of a class with at most one point among them. -/
def Text.IsNumeral (digit : Char → Bool) (text : List Char) : Prop :=
  ∃ whole fraction : List Char, (∀ c ∈ whole, digit c = true) ∧ (∀ c ∈ fraction, digit c = true) ∧
    (text = whole ∨ text = whole ++ '.' :: fraction)

/-- Blanks with at most one star among them. -/
def Text.IsStar (text : List Char) : Prop :=
  ∃ front back : List Char, (∀ c ∈ front, isBlank c = true) ∧ (∀ c ∈ back, isBlank c = true) ∧
    (text = front ++ back ∨ text = front ++ '*' :: back)

/-- A stroke between blanks. -/
def Text.IsStroke (text : List Char) : Prop :=
  ∃ front back : List Char, (∀ c ∈ front, isBlank c = true) ∧ (∀ c ∈ back, isBlank c = true) ∧
    text = front ++ '/' :: back

/-- A class of characters that may count as digits: those of ASCII, and others that are not
blank. -/
structure Text.DigitClass (digit : Char → Bool) : Prop where
  ascii : ∀ c : Char, c.toNat < 128 → digit c = c.isDigit
  not_isBlank : ∀ c : Char, digit c = true → isBlank c = false

/-- The pieces of a multiple of π that matter for its value. -/
structure PiParts where
  negative : Bool
  coefficient : List Char
  divisor : Option (List Char)

namespace PiParts

/-- What may follow π: nothing, or a stroke and a numeral that begins with a digit. -/
inductive IsTail (digit : Char → Bool) : Option (List Char) → List Char → Prop
  | absent : IsTail digit none []
  | present {stroke : List Char} {c : Char} {rest : List Char} : IsStroke stroke →
      digit c = true → IsNumeral digit (c :: rest) →
      IsTail digit (some (c :: rest)) (stroke ++ c :: rest)

/-- The text falls into the pieces. -/
inductive Matches (digit : Char → Bool) (p : PiParts) : List Char → Prop
  | mk {star tail : List Char} : IsNumeral digit p.coefficient → IsStar star →
      IsTail digit p.divisor tail →
      Matches digit p
        ((if p.negative then ['-'] else []) ++ (p.coefficient ++ (star ++ 'p' :: 'i' :: tail)))

/-- The number in front of π, one if there is none. -/
def factor? (p : PiParts) : Option Binary64 :=
  if p.coefficient = [] then some 1 else Literal.value? p.coefficient

/-- The product divided by the divisor, if there is one; a zero is none. -/
def quotient? (p : PiParts) (product : Binary64) : Option Binary64 :=
  match p.divisor with
  | none => some product
  | some text => (Literal.value? text).bind fun y => if y.isZero then none else some (product / y)

/-- What is made of the pieces: the factor times π, divided by the divisor, with the sign. -/
def value? (p : PiParts) : Option Binary64 :=
  (p.factor?.bind fun x => p.quotient? (x * .pi)).map fun q => if p.negative then -q else q

end PiParts

/-! ### One way only -/

namespace Text

variable {digit : Char → Bool} {text rest : List Char} {c : Char}

theorem IsNumeral.of_mem (h : IsNumeral digit text) (hc : c ∈ text) :
    digit c = true ∨ c = '.' := by
  obtain ⟨whole, fraction, hwhole, hfraction, rfl | rfl⟩ := h
  · exact .inl (hwhole c hc)
  · rcases List.mem_append.1 hc with hc | hc
    · exact .inl (hwhole c hc)
    · exact (List.mem_cons.1 hc).symm.imp_left (hfraction c)

theorem IsStar.of_mem (h : IsStar text) (hc : c ∈ text) : isBlank c = true ∨ c = '*' := by
  obtain ⟨front, back, hfront, hback, rfl | rfl⟩ := h
  · exact .inl ((List.mem_append.1 hc).elim (hfront c) (hback c))
  · rcases List.mem_append.1 hc with hc | hc
    · exact .inl (hfront c hc)
    · exact (List.mem_cons.1 hc).symm.imp_left (hback c)

theorem IsStroke.of_mem (h : IsStroke text) (hc : c ∈ text) : isBlank c = true ∨ c = '/' := by
  obtain ⟨front, back, hfront, hback, rfl⟩ := h
  rcases List.mem_append.1 hc with hc | hc
  · exact .inl (hfront c hc)
  · exact (List.mem_cons.1 hc).symm.imp_left (hback c)

theorem digitClass_isDigit : DigitClass Char.isDigit where
  ascii _ _ := rfl
  not_isBlank _ h := isBlank_of_isDigit h

/-- Blanks and ASCII characters other than digits are no digits. -/
theorem DigitClass.eq_false (h : DigitClass digit)
    (hc : isBlank c = true ∨ c.toNat < 128 ∧ c.isDigit = false) : digit c = false := by
  rcases hc with hblank | ⟨hascii, hc⟩
  · by_contra hdigit
    rw [h.not_isBlank c (by simpa using hdigit)] at hblank
    cases hblank
  · rw [h.ascii c hascii, hc]

end Text

namespace PiParts

variable {digit : Char → Bool} {p p' : PiParts} {text star tail tail' : List Char}
  {divisor divisor' : Option (List Char)}

/-- The sign is told from what follows it. -/
theorem stops_minus (hdigit : DigitClass digit) (hc : IsNumeral digit p.coefficient)
    (hstar : IsStar star) :
    Stops (· == '-') (p.coefficient ++ (star ++ 'p' :: 'i' :: tail)) := by
  refine stops_append (fun c h => ?_) (stops_append (fun c h => ?_) (stops_cons.2 rfl))
  · refine beq_eq_false_iff_ne.2 ?_
    rintro rfl
    rcases hc.of_mem h with hminus | hminus
    · rw [hdigit.eq_false (.inr ⟨by decide, rfl⟩)] at hminus
      cases hminus
    · cases hminus
  · refine beq_eq_false_iff_ne.2 ?_
    rintro rfl
    rcases hstar.of_mem h with hminus | hminus <;> exact absurd hminus (by decide)

/-- The coefficient is told from what follows it. -/
theorem stops_star (hdigit : DigitClass digit) (hstar : IsStar star) :
    Stops (fun c => digit c || c == '.') (star ++ 'p' :: 'i' :: tail) := by
  refine stops_append (fun c h => ?_) (stops_cons.2 ?_)
  · rw [Bool.or_eq_false_iff, beq_eq_false_iff_ne]
    rcases hstar.of_mem h with hblank | rfl
    · refine ⟨hdigit.eq_false (.inl hblank), ?_⟩
      rintro rfl
      exact absurd hblank (by decide)
    · exact ⟨hdigit.eq_false (.inr ⟨by decide, rfl⟩), by decide⟩
  · rw [hdigit.eq_false (.inr ⟨by decide, rfl⟩)]
    rfl

theorem IsTail.cases_eq (h : IsTail digit divisor text) : divisor = none ∧ text = [] ∨
    ∃ stroke c rest, divisor = some (c :: rest) ∧ text = stroke ++ c :: rest ∧ IsStroke stroke ∧
      digit c = true ∧ IsNumeral digit (c :: rest) := by
  cases h with
  | absent => exact .inl ⟨rfl, rfl⟩
  | present hstroke hc hnumeral => exact .inr ⟨_, _, _, rfl, rfl, hstroke, hc, hnumeral⟩

/-- The stroke is told from the divisor. -/
theorem IsTail.unique (hdigit : DigitClass digit) (h : IsTail digit divisor text)
    (h' : IsTail digit divisor' text) : divisor = divisor' := by
  have hstops : ∀ {c : Char} {rest : List Char}, digit c = true →
      Stops (fun c => isBlank c || c == '/') (c :: rest) := by
    intro c rest hc
    rw [stops_cons, hdigit.not_isBlank c hc, Bool.false_or, beq_eq_false_iff_ne]
    rintro rfl
    rw [hdigit.eq_false (.inr ⟨by decide, rfl⟩)] at hc
    cases hc
  have hrun : ∀ {stroke : List Char}, IsStroke stroke →
      ∀ c ∈ stroke, (isBlank c || c == '/') = true := fun hstroke c hc => by
    simpa using hstroke.of_mem hc
  rcases h.cases_eq with ⟨rfl, rfl⟩ | ⟨stroke, c, rest, rfl, rfl, hstroke, hc, -⟩ <;>
    rcases h'.cases_eq with ⟨rfl, htext⟩ | ⟨stroke', c', rest', rfl, htext, hstroke', hc', -⟩
  · rfl
  · exact absurd htext.symm (by simp)
  · exact absurd htext (by simp)
  · rw [(append_inj_of_stops (hrun hstroke) (hstops hc) (hrun hstroke') (hstops hc') htext).2]

theorem Matches.exists_eq (h : p.Matches digit text) : ∃ star tail,
    IsNumeral digit p.coefficient ∧ IsStar star ∧ IsTail digit p.divisor tail ∧
      text = (if p.negative then ['-'] else []) ++
        (p.coefficient ++ (star ++ 'p' :: 'i' :: tail)) := by
  cases h with
  | mk hnumeral hstar htail => exact ⟨_, _, hnumeral, hstar, htail, rfl⟩

/-- A text falls into pieces in one way only. -/
theorem Matches.unique (hdigit : DigitClass digit) (h : p.Matches digit text)
    (h' : p'.Matches digit text) : p = p' := by
  obtain ⟨star, tail, hnumeral, hstar, htail, rfl⟩ := h.exists_eq
  obtain ⟨star', tail', hnumeral', hstar', htail', heq⟩ := h'.exists_eq
  have hsign : ∀ (negative : Bool), ∀ c ∈ if negative then ['-'] else [], (c == '-') = true := by
    decide
  have hdigits : ∀ {coefficient : List Char}, IsNumeral digit coefficient →
      ∀ c ∈ coefficient, (digit c || c == '.') = true := fun hnumeral c hc => by
    simpa using hnumeral.of_mem hc
  have hblanks : ∀ {star : List Char}, IsStar star →
      ∀ c ∈ star, (isBlank c || c == '*') = true := fun hstar c hc => by
    simpa using hstar.of_mem hc
  -- One piece after the other, each a run of characters that the rest does not continue.
  obtain ⟨hnegative, heq⟩ := append_inj_of_stops (hsign _) (stops_minus hdigit hnumeral hstar)
    (hsign _) (stops_minus hdigit hnumeral' hstar') heq
  obtain ⟨hcoefficient, heq⟩ := append_inj_of_stops (hdigits hnumeral) (stops_star hdigit hstar)
    (hdigits hnumeral') (stops_star hdigit hstar') heq
  obtain ⟨-, heq⟩ := append_inj_of_stops (hblanks hstar) (stops_cons.2 rfl) (hblanks hstar')
    (stops_cons.2 rfl) heq
  simp only [List.cons.injEq, true_and] at heq
  subst heq
  obtain ⟨negative, coefficient, divisor⟩ := p
  obtain ⟨negative', coefficient', divisor'⟩ := p'
  obtain rfl : coefficient = coefficient' := hcoefficient
  obtain rfl : divisor = divisor' := htail.unique hdigit htail'
  cases negative <;> cases negative' <;> simp_all

end PiParts

/-! ### Reading the pieces -/

theorem Text.isNumeral_iff {text : List Char} :
    IsNumeral Char.isDigit text ↔ ∃ n : Numeral, n.WellFormed ∧ n.toText = text := by
  constructor
  · rintro ⟨whole, fraction, hwhole, hfraction, rfl | rfl⟩
    · exact ⟨⟨text, false, []⟩, ⟨hwhole, nofun, fun _ => rfl⟩, List.append_nil _⟩
    · exact ⟨⟨whole, true, fraction⟩, ⟨hwhole, hfraction, nofun⟩, rfl⟩
  · rintro ⟨⟨whole, point, fraction⟩, hn, rfl⟩
    cases point with
    | false => exact ⟨whole, [], hn.isDigit_whole, nofun, .inl (List.append_nil _)⟩
    | true => exact ⟨whole, fraction, hn.isDigit_whole, hn.isDigit_fraction, .inr rfl⟩

namespace PiTerm

variable {n : Numeral} {star tail text : List Char}

theorem dropBlanks_append {front rest : List Char} (hfront : ∀ c ∈ front, isBlank c = true)
    (hrest : Stops isBlank rest) : dropBlanks (front ++ rest) = rest :=
  dropWhile_of_stops hfront hrest

theorem exists_blanks (text : List Char) :
    ∃ front : List Char, (∀ c ∈ front, isBlank c = true) ∧ front ++ dropBlanks text = text :=
  ⟨text.takeWhile isBlank, fun c hc => List.all_eq_true.1 List.all_takeWhile c hc,
    List.takeWhile_append_dropWhile⟩

theorem skipStar_append (hstar : IsStar star) (rest : List Char) :
    skipStar (star ++ 'p' :: rest) = 'p' :: rest := by
  have hp : ∀ {c : Char}, isBlank c = false → ∀ rest, Stops isBlank (c :: rest) :=
    fun hc _ => stops_cons.2 hc
  obtain ⟨front, back, hfront, hback, rfl | rfl⟩ := hstar
  · have hblank : ∀ c ∈ front ++ back, isBlank c = true := fun c hc =>
      (List.mem_append.1 hc).elim (hfront c) (hback c)
    rw [skipStar, dropBlanks_append hblank (hp (by decide) rest)]
    rfl
  · rw [skipStar, List.append_assoc, List.cons_append, dropBlanks_append hfront (hp rfl _)]
    exact dropBlanks_append hback (hp (by decide) rest)

theorem skipStar_spec (text : List Char) : ∃ star, IsStar star ∧ star ++ skipStar text = text := by
  obtain ⟨front, hfront, htext⟩ := exists_blanks text
  unfold skipStar
  split
  · rename_i rest hrest
    obtain ⟨back, hback, hback'⟩ := exists_blanks rest
    refine ⟨front ++ '*' :: back, ⟨front, back, hfront, hback, .inr rfl⟩, ?_⟩
    rw [List.append_assoc, List.cons_append, hback', ← hrest, htext]
  · exact ⟨front, ⟨front, [], hfront, nofun, .inl (List.append_nil _).symm⟩, htext⟩

/-- A multiple of π is read piece by piece. -/
theorem read?_append (negative : Bool) (hn : n.WellFormed) (hstar : IsStar star)
    (tail : List Char) :
    read? ((if negative then ['-'] else []) ++ (n.toText ++ (star ++ 'p' :: 'i' :: tail))) =
      (do
        let coefficient ← coefficient? n
        let divisor ← divisor? tail
        return ⟨negative, coefficient, divisor⟩) := by
  have hnumeral : IsNumeral Char.isDigit n.toText := isNumeral_iff.2 ⟨n, hn, rfl⟩
  have hstops : Stops (fun c => c.isDigit || c == '.') (star ++ 'p' :: 'i' :: tail) :=
    PiParts.stops_star digitClass_isDigit hstar
  have hends : n.EndsBefore (star ++ 'p' :: 'i' :: tail) :=
    ⟨fun c hc => (Bool.or_eq_false_iff.1 (hstops c hc)).1,
      fun _ c hc => (Bool.or_eq_false_iff.1 (hstops c hc)).2⟩
  have hminus : Stops (· == '-') (n.toText ++ (star ++ 'p' :: 'i' :: tail)) :=
    PiParts.stops_minus (p := ⟨negative, n.toText, none⟩) digitClass_isDigit hnumeral hstar
  have hread := Numeral.read_toText hn hends
  have hskip := skipStar_append hstar ('i' :: tail)
  cases negative with
  | true =>
    unfold read?
    simp only [if_true, List.cons_append, List.nil_append, hread, hskip]
  | false =>
    simp only [Bool.false_eq_true, if_false, List.nil_append] at hminus ⊢
    generalize n.toText ++ (star ++ 'p' :: 'i' :: tail) = text at hread hminus
    unfold read?
    split
    rename_i negative rest heq
    split at heq
    · exact absurd (stops_cons.1 hminus) (by decide)
    · cases heq
      simp only [hread, hskip]

theorem divisor?_stroke {stroke : List Char} (hstroke : IsStroke stroke) (hn : n.WellFormed)
    (hne : n.whole ≠ []) : divisor? (stroke ++ n.toText) = n.value?.map some := by
  obtain ⟨front, back, hfront, hback, rfl⟩ := hstroke
  obtain ⟨c, rest, hwhole⟩ := List.exists_cons_of_ne_nil hne
  have hc : isBlank c = false := isBlank_of_isDigit (hn.isDigit_whole c (by simp [hwhole]))
  have hread : Numeral.read (n.toText ++ []) = (n, []) :=
    Numeral.read_toText hn ⟨stops_nil, fun _ => stops_nil⟩
  rw [List.append_nil] at hread
  have hdrop : dropBlanks (front ++ '/' :: back ++ n.toText) = '/' :: (back ++ n.toText) := by
    rw [List.append_assoc]
    exact dropBlanks_append hfront (stops_cons.2 rfl)
  have hdrop' : dropBlanks (back ++ n.toText) = n.toText :=
    dropBlanks_append hback (by rw [Numeral.toText, hwhole]; exact stops_cons.2 hc)
  unfold divisor?
  split
  · rename_i hnil
    simp at hnil
  · rw [hdrop]
    simp only [hdrop', hread]
    simp [hne]

theorem isTail_of_divisor? {d : Option Decimal} (h : divisor? text = some d) :
    ∃ divisor, PiParts.IsTail Char.isDigit divisor text := by
  unfold divisor? at h
  split at h
  · exact ⟨none, .absent⟩
  · obtain ⟨front, hfront, htext⟩ := exists_blanks text
    split at h
    · rename_i rest hrest
      obtain ⟨back, hback, hback'⟩ := exists_blanks rest
      obtain ⟨hn, -, hdigits⟩ := Numeral.read_spec (dropBlanks rest)
      split at h
      · rename_i n hread
        rw [hread, List.append_nil] at hdigits
        rw [hread] at hn
        split at h
        · cases h
        · rename_i hwhole
          obtain ⟨c, whole, hwhole⟩ := List.exists_cons_of_ne_nil (by simpa using hwhole)
          have hn' : n.toText = c :: (whole ++ if n.point then '.' :: n.fraction else []) := by
            rw [Numeral.toText, hwhole, List.cons_append]
          have htail := PiParts.IsTail.present ⟨front, back, hfront, hback, rfl⟩
            (hn.isDigit_whole c (by simp [hwhole])) (isNumeral_iff.2 ⟨n, hn, hn'⟩)
          rw [← hn', hdigits, List.append_assoc, List.cons_append, hback', ← hrest, htext] at htail
          exact ⟨_, htail⟩
      · cases h
    · cases h

end PiTerm

namespace PiParts

variable {p : PiParts} {text : List Char} {n : Numeral}

/-- A numeral without a sign is a literal exactly if it has a digit. -/
theorem value?_numeral (hn : n.WellFormed) :
    Literal.value? n.toText = n.value?.map (.ofDecimal false) := by
  cases hd : n.value? with
  | some d => exact Literal.value?_numeral .absent hn hd
  | none =>
    obtain ⟨whole, point, fraction⟩ := n
    have hempty : whole = [] ∧ fraction = [] := by
      by_contra hne
      rw [Numeral.value?, if_neg (by simpa using hne)] at hd
      cases hd
    obtain ⟨rfl, rfl⟩ := hempty
    -- Nothing, or a point alone.
    cases point <;> rfl

theorem coefficient?_eq (hn : n.WellFormed) :
    (PiTerm.coefficient? n).map (·.elim 1 PiTerm.factor) =
      if n.toText = [] then some 1 else Literal.value? n.toText := by
  have hempty : n.isEmpty = true ↔ n.toText = [] := by
    cases hp : n.point <;> simp [Numeral.isEmpty, Numeral.toText, hp]
  unfold PiTerm.coefficient?
  by_cases h : n.isEmpty = true
  · rw [if_pos h, if_pos (hempty.1 h)]
    rfl
  · rw [if_neg h, if_neg (fun hnil => h (hempty.2 hnil)), value?_numeral hn, Option.map_map]
    rfl

/-- What is read off the pieces is their value. -/
theorem Matches.value?_eq (h : p.Matches Char.isDigit text) :
    (PiTerm.read? text).bind PiTerm.value? = p.value? := by
  obtain ⟨star, tail, hnumeral, hstar, htail, rfl⟩ := h.exists_eq
  obtain ⟨n, hn, hcoefficient⟩ := isNumeral_iff.1 hnumeral
  have hfactor := coefficient?_eq hn
  rw [hcoefficient] at hfactor
  rw [← hcoefficient, PiTerm.read?_append p.negative hn hstar tail]
  unfold value? factor?
  rw [← hfactor]
  cases PiTerm.coefficient? n with
  | none => rfl
  | some coefficient =>
    rcases htail.cases_eq with ⟨hd, rfl⟩ | ⟨stroke, c, rest, hd, rfl, hstroke, hdigit, hdivisor⟩
    · rw [Option.map_some, Option.bind_some, quotient?, hd]
      rfl
    · obtain ⟨m, hm, hdivisor⟩ := isNumeral_iff.1 hdivisor
      have hne : m.whole ≠ [] := by
        intro hnil
        rw [Numeral.toText, hnil, List.nil_append] at hdivisor
        split at hdivisor <;> cases hdivisor
        cases hdigit
      rw [Option.map_some, Option.bind_some, quotient?, hd, ← hdivisor,
        PiTerm.divisor?_stroke hstroke hm hne]
      dsimp only
      rw [value?_numeral hm]
      cases m.value? with
      | none => rfl
      | some d =>
        change (PiTerm.mk p.negative coefficient (some d)).value? = _
        rw [PiTerm.value?]
        dsimp only
        rw [Option.map_some, Option.bind_some, PiTerm.factor]

/-- What is read falls into pieces. -/
theorem exists_matches {t : PiTerm} (h : PiTerm.read? text = some t) :
    ∃ p : PiParts, p.Matches Char.isDigit text := by
  unfold PiTerm.read? at h
  split at h
  rename_i negative rest hsplit
  have hsign : (if negative then ['-'] else []) ++ rest = text := by
    split at hsplit <;> cases hsplit <;> rfl
  obtain ⟨hn, -, hrest⟩ := Numeral.read_spec rest
  obtain ⟨star, hstar, hstar'⟩ := PiTerm.skipStar_spec (Numeral.read rest).2
  dsimp only at h
  split at h
  · rename_i tail htail
    simp only [Option.bind_eq_bind, Option.bind_eq_some_iff] at h
    obtain ⟨_, -, d, hd, -⟩ := h
    obtain ⟨divisor, hdivisor⟩ := PiTerm.isTail_of_divisor? hd
    refine ⟨⟨negative, (Numeral.read rest).1.toText, divisor⟩, ?_⟩
    have hmatches : Matches Char.isDigit ⟨negative, (Numeral.read rest).1.toText, divisor⟩ _ :=
      .mk (isNumeral_iff.2 ⟨_, hn, rfl⟩) hstar hdivisor
    rwa [← htail, hstar', hrest, hsign] at hmatches
  · cases h

end PiParts

/-! ### Other digits and other letters -/

/-- Another class of digits will do if it has those that are there. -/
theorem Text.IsNumeral.mono {digit digit' : Char → Bool} {text : List Char}
    (h : IsNumeral digit text) (hmono : ∀ c ∈ text, digit c = true → digit' c = true) :
    IsNumeral digit' text := by
  obtain ⟨whole, fraction, hwhole, hfraction, rfl | rfl⟩ := h
  · exact ⟨text, [], fun c hc => hmono c hc (hwhole c hc), nofun, .inl rfl⟩
  · refine ⟨whole, fraction, fun c hc => ?_, fun c hc => ?_, .inr rfl⟩
    · exact hmono c (List.mem_append_left _ hc) (hwhole c hc)
    · exact hmono c (List.mem_append_right _ (List.mem_cons_of_mem _ hc)) (hfraction c hc)

namespace PiParts

variable {digit digit' : Char → Bool} {p : PiParts} {text lower : List Char}

theorem Matches.mono (h : p.Matches digit text)
    (hcoefficient : ∀ c ∈ p.coefficient, digit c = true → digit' c = true)
    (hdivisor : ∀ d ∈ p.divisor, ∀ c ∈ d, digit c = true → digit' c = true) :
    p.Matches digit' text := by
  obtain ⟨star, tail, hnumeral, hstar, htail, rfl⟩ := h.exists_eq
  refine .mk (hnumeral.mono hcoefficient) hstar ?_
  rcases htail.cases_eq with ⟨hd, rfl⟩ | ⟨stroke, c, rest, hd, rfl, hstroke, hdigit, hnumeral⟩
  · rw [hd]
    exact .absent
  · have hmono := hdivisor _ (Option.mem_def.2 hd)
    rw [hd]
    exact .present hstroke (hmono c List.mem_cons_self hdigit) (hnumeral.mono hmono)

/-- ASCII digits belong to every class. -/
theorem Matches.of_isDigit (hdigit : DigitClass digit) (h : p.Matches Char.isDigit text) :
    p.Matches digit text := by
  have hmono : ∀ c : Char, c.isDigit = true → digit c = true := fun c hc => by
    rw [hdigit.ascii c (by have := isDigit_iff.1 hc; omega), hc]
  exact h.mono (fun c _ => hmono c) fun _ _ c _ => hmono c

/-- Pieces that have a value have ASCII digits only. -/
theorem Matches.isDigit_of_value? (hdigit : DigitClass digit) (h : p.Matches digit text)
    {v : Binary64} (hv : p.value? = some v) : p.Matches Char.isDigit text := by
  have hmono : ∀ {text : List Char} {x : Binary64}, Literal.value? text = some x →
      ∀ c ∈ text, digit c = true → c.isDigit = true := fun hx c hc hd => by
    rwa [← hdigit.ascii c ((Literal.value?_eq_some_iff.1 hx).ascii hc).1]
  obtain ⟨q, hq, -⟩ := Option.map_eq_some_iff.1 hv
  obtain ⟨x, hx, hq⟩ := Option.bind_eq_some_iff.1 hq
  refine h.mono (fun c hc => ?_) fun d hd => ?_
  · rw [factor?, if_neg (List.ne_nil_of_mem hc)] at hx
    exact hmono hx c hc
  · rw [quotient?, Option.mem_def.1 hd] at hq
    obtain ⟨y, hy, -⟩ := Option.bind_eq_some_iff.1 hq
    exact hmono hy

/-- There is nothing foreign in a multiple of π with ASCII digits. -/
theorem Matches.not_foreign (h : p.Matches Char.isDigit text) {c : Char} (hc : c ∈ text) :
    ¬Foreign c := by
  intro hforeign
  have hblank : ¬isBlank c = true := by simp [hforeign.not_isBlank]
  have hdigit : ¬c.isDigit = true := by simp [hforeign.not_isDigit]
  have hother : ∀ d ∈ ['-', '.', '*', '/', 'p', 'i'], c ≠ d := fun d hd heq =>
    hforeign.not_mem (heq ▸ hd)
  obtain ⟨star, tail, hnumeral, hstar, htail, rfl⟩ := h.exists_eq
  rcases List.mem_append.1 hc with hc | hc
  · split at hc
    · exact hother '-' (by decide) (List.mem_singleton.1 hc)
    · cases hc
  rcases List.mem_append.1 hc with hc | hc
  · exact (hnumeral.of_mem hc).elim hdigit (hother '.' (by decide))
  rcases List.mem_append.1 hc with hc | hc
  · exact (hstar.of_mem hc).elim hblank (hother '*' (by decide))
  rcases List.mem_cons.1 hc with hc | hc
  · exact hother 'p' (by decide) hc
  rcases List.mem_cons.1 hc with hc | hc
  · exact hother 'i' (by decide) hc
  rcases htail.cases_eq with ⟨-, rfl⟩ | ⟨stroke, _, _, -, rfl, hstroke, -, hnumeral⟩
  · cases hc
  rcases List.mem_append.1 hc with hc | hc
  · exact (hstroke.of_mem hc).elim hblank (hother '/' (by decide))
  · exact (hnumeral.of_mem hc).elim hdigit (hother '.' (by decide))

/-- Whatever way a text is put in small letters, it falls into the same pieces. -/
theorem matches_lowercased (h : Lowercased text lower) :
    p.Matches Char.isDigit lower ↔ p.Matches Char.isDigit (text.map Char.toLower) := by
  constructor
  · intro hp
    rwa [← h.eq_map (.inl fun _ => hp.not_foreign)]
  · intro hp
    rwa [h.eq_map (.inr fun _ => hp.not_foreign)]

/-- A multiple of π is no literal, for it has a `p`. -/
theorem Matches.not_denotes (h : p.Matches digit lower) (hlower : Lowercased text lower)
    (x : Binary64) : ¬Literal.Denotes text x := by
  intro hx
  obtain ⟨star, tail, -, -, -, htext⟩ := h.exists_eq
  have hp : 'p' ∈ text.map Char.toLower := by
    rw [← hlower.eq_map_of_ascii fun c hc => (hx.ascii hc).1]
    simp [htext]
  obtain ⟨c, hc, heq⟩ := List.mem_map.1 hp
  exact (hx.ascii hc).2 heq

/-- A coefficient with a value has a digit. -/
theorem Matches.exists_isDigit (h : p.Matches Char.isDigit text) {v : Binary64}
    (hv : p.value? = some v) : p.coefficient = [] ∨ ∃ c ∈ p.coefficient, c.isDigit = true := by
  obtain ⟨q, hq, -⟩ := Option.map_eq_some_iff.1 hv
  obtain ⟨x, hx, -⟩ := Option.bind_eq_some_iff.1 hq
  obtain ⟨star, tail, ⟨whole, fraction, hwhole, hfraction, htext⟩, -⟩ := h.exists_eq
  cases whole with
  | cons c whole =>
    have hc : c ∈ p.coefficient := by rcases htext with htext | htext <;> simp [htext]
    exact .inr ⟨c, hc, hwhole c List.mem_cons_self⟩
  | nil =>
    cases fraction with
    | cons c fraction =>
      rcases htext with htext | htext
      · exact .inl htext
      · exact .inr ⟨c, by simp [htext], hfraction c List.mem_cons_self⟩
    | nil =>
      rcases htext with htext | htext
      · exact .inl htext
      · rw [factor?, htext] at hx
        cases hx

end PiParts

namespace Angle

section

variable {s : String} {x v : Binary64} {p : PiParts}

theorem read?_of_denotes (h : Literal.Denotes (trim s.toList) x) :
    read? s = if x.isFinite then some x else none := by
  rw [read?]
  rw [Literal.value?_eq_some_iff.2 h]

theorem read?_of_not_denotes (h : ∀ x, ¬Literal.Denotes (trim s.toList) x) :
    read? s = (PiTerm.read? ((trim s.toList).map Char.toLower)).bind PiTerm.value? := by
  have hnone : Literal.value? (trim s.toList) = none := by
    refine Option.eq_none_iff_forall_ne_some.2 fun x hx => ?_
    exact h x (Literal.value?_eq_some_iff.1 hx)
  rw [read?]
  rw [hnone]

/-- The value of a text that falls into pieces is that of the pieces. -/
theorem read?_of_matches (h : p.Matches Char.isDigit ((trim s.toList).map Char.toLower)) :
    read? s = p.value? := by
  rw [read?_of_not_denotes (h.not_denotes (lowercased_map _)), h.value?_eq]

/-- A text with a value that is no literal falls into pieces. -/
theorem exists_matches_of_read? (hv : read? s = some v)
    (h : ∀ x, ¬Literal.Denotes (trim s.toList) x) :
    ∃ p : PiParts, p.Matches Char.isDigit ((trim s.toList).map Char.toLower) := by
  rw [read?_of_not_denotes h] at hv
  obtain ⟨t, ht, -⟩ := Option.bind_eq_some_iff.1 hv
  exact PiParts.exists_matches ht

end

/-- What an angle is.  Let `lower` be the text in small letters, without the blanks around it.  The
text has a value exactly if it is a literal for a finite number or falls into the pieces of a
multiple of π that have a value.  Whatever characters count as digits, it falls into pieces in one
way at most, and then its value is that of the pieces.  Literals for other numbers, a point alone
in front of π, and any character beyond ASCII that is not a blank leave no value. -/
theorem grammar_spec {s : String} {lower : List Char}
    (hlower : Lowercased (trim s.toList) lower) :
    (∀ v, read? s = some v ↔
      Literal.Denotes (trim s.toList) v ∧ v.isFinite = true ∨
        (∀ x, ¬Literal.Denotes (trim s.toList) x) ∧
          ∃ p : PiParts, p.Matches Char.isDigit lower ∧
            (p.coefficient = [] ∨ ∃ c ∈ p.coefficient, c.isDigit = true) ∧ p.value? = some v) ∧
    (∀ digit, DigitClass digit → ∀ p : PiParts, p.Matches digit lower →
      (∀ p' : PiParts, p'.Matches digit lower → p' = p) ∧ read? s = p.value? ∧
        (p.coefficient = ['.'] → read? s = none)) ∧
    (∀ x, Literal.Denotes (trim s.toList) x → x.isFinite = false → read? s = none) ∧
    (∀ c ∈ trim s.toList, 128 ≤ c.toNat → isBlank c = false → read? s = none) := by
  have hliteral : ∀ x, Literal.Denotes (trim s.toList) x → x.isFinite = false →
      read? s = none := fun x hx hinfinite => by
    rw [read?_of_denotes hx, hinfinite]
    rfl
  have hmultiple : ∀ {p : PiParts}, p.Matches Char.isDigit lower →
      p.Matches Char.isDigit ((trim s.toList).map Char.toLower) :=
    (PiParts.matches_lowercased hlower).1
  have hiff : ∀ v, read? s = some v ↔
      Literal.Denotes (trim s.toList) v ∧ v.isFinite = true ∨
        (∀ x, ¬Literal.Denotes (trim s.toList) x) ∧
          ∃ p : PiParts, p.Matches Char.isDigit lower ∧
            (p.coefficient = [] ∨ ∃ c ∈ p.coefficient, c.isDigit = true) ∧
            p.value? = some v := by
    intro v
    constructor
    · intro hv
      by_cases h : ∃ x, Literal.Denotes (trim s.toList) x
      · obtain ⟨x, hx⟩ := h
        rw [read?_of_denotes hx] at hv
        split at hv
        · rename_i hfinite
          cases hv
          exact .inl ⟨hx, hfinite⟩
        · cases hv
      · rw [not_exists] at h
        obtain ⟨p, hp⟩ := exists_matches_of_read? hv h
        rw [read?_of_matches hp] at hv
        exact .inr ⟨h, p, (PiParts.matches_lowercased hlower).2 hp, hp.exists_isDigit hv, hv⟩
    · rintro (⟨hv, hfinite⟩ | ⟨-, p, hp, -, hv⟩)
      · rw [read?_of_denotes hv, if_pos hfinite]
      · rw [read?_of_matches (hmultiple hp), hv]
  refine ⟨hiff, fun digit hdigit p hp => ?_, hliteral, fun c hc hascii hblank => ?_⟩
  · have hunique : ∀ p' : PiParts, p'.Matches digit lower → p' = p := fun p' hp' =>
      hp'.unique hdigit hp
    have hvalue : read? s = p.value? := by
      by_cases hp' : p.Matches Char.isDigit lower
      · exact read?_of_matches (hmultiple hp')
      · -- With other digits among them the pieces have no value, and no other pieces have one.
        have hnone : p.value? = none := Option.eq_none_iff_forall_ne_some.2 fun v hv =>
          hp' (hp.isDigit_of_value? hdigit hv)
        rw [hnone]
        refine Option.eq_none_iff_forall_ne_some.2 fun v hv => ?_
        rcases (hiff v).1 hv with ⟨hv, -⟩ | ⟨-, p', hp'', -⟩
        · exact hp.not_denotes hlower v hv
        · rw [hunique p' (hp''.of_isDigit hdigit)] at hp''
          exact hp' hp''
    refine ⟨hunique, hvalue, fun hpoint => ?_⟩
    rw [hvalue, PiParts.value?, PiParts.factor?, hpoint]
    rfl
  · refine Option.eq_none_iff_forall_ne_some.2 fun v hv => ?_
    rcases (hiff v).1 hv with ⟨hv, -⟩ | ⟨-, p, hp, -⟩
    · exact absurd (hv.ascii hc).1 (Nat.not_lt.2 hascii)
    · have hmem := List.mem_map_of_mem (f := Char.toLower) hc
      rw [toLower_of_le hascii] at hmem
      exact (hmultiple hp).not_foreign hmem (foreign_of_le hascii hblank)

/-- The digits of ASCII and the Arabic-Indic ones. -/
def isDigitOfTwo (c : Char) : Bool := c.isDigit || decide (0x660 ≤ c.toNat ∧ c.toNat ≤ 0x669)

theorem digitClass_isDigitOfTwo : DigitClass isDigitOfTwo where
  ascii c hc := by
    rw [isDigitOfTwo, decide_eq_false (by omega), Bool.or_false]
  not_isBlank c hc := by
    rw [isDigitOfTwo, Bool.or_eq_true, decide_eq_true_eq] at hc
    rcases hc with hc | hc
    · exact isBlank_of_isDigit hc
    · refine isBlank_eq_false_iff.2 fun range hrange => ?_
      have hdigits : ∀ range ∈ blankRanges, range.2 < 0x660 ∨ 0x669 < range.1 := by decide
      have := hdigits range hrange
      omega

/-- An angle in which every piece is there, and one with another three. -/
theorem grammar_pieces :
    Lowercased (trim " -1.5 *PI/ 2\t".toList) "-1.5 *pi/ 2".toList ∧
      read? " -1.5 *PI/ 2\t" = (⟨true, "1.5".toList, some "2".toList⟩ : PiParts).value? ∧
      (read? " -1.5 *PI/ 2\t").isSome = true ∧
      (∀ p : PiParts, p.Matches Char.isDigit "-1.5 *pi/ 2".toList →
        p = ⟨true, "1.5".toList, some "2".toList⟩) ∧
      DigitClass isDigitOfTwo ∧
      (⟨false, "٣".toList, none⟩ : PiParts).Matches isDigitOfTwo "٣pi".toList ∧
      read? "٣PI" = none := by
  have hlower : Lowercased (trim " -1.5 *PI/ 2\t".toList) "-1.5 *pi/ 2".toList := by
    have hmap : (trim " -1.5 *PI/ 2\t".toList).map Char.toLower = "-1.5 *pi/ 2".toList := by
      decide +kernel
    exact hmap ▸ lowercased_map _
  have hpieces : (⟨true, "1.5".toList, some "2".toList⟩ : PiParts).Matches Char.isDigit
      "-1.5 *pi/ 2".toList :=
    @PiParts.Matches.mk _ _ " *".toList "/ 2".toList
      ⟨['1'], ['5'], by decide, by decide, .inr rfl⟩ ⟨[' '], [], by decide, nofun, .inr rfl⟩
      (.present ⟨[], [' '], nofun, by decide, rfl⟩ rfl ⟨['2'], [], by decide, nofun, .inl rfl⟩)
  have hlower' : Lowercased (trim "٣PI".toList) "٣pi".toList := by
    have hmap : (trim "٣PI".toList).map Char.toLower = "٣pi".toList := by decide +kernel
    exact hmap ▸ lowercased_map _
  have hpieces' : (⟨false, "٣".toList, none⟩ : PiParts).Matches isDigitOfTwo "٣pi".toList :=
    @PiParts.Matches.mk _ _ [] [] ⟨['٣'], [], by decide, nofun, .inl rfl⟩
      ⟨[], [], nofun, nofun, .inl rfl⟩ .absent
  obtain ⟨hunique, hvalue, -⟩ := (grammar_spec hlower).2.1 _ digitClass_isDigit _ hpieces
  refine ⟨hlower, hvalue, ?_, hunique, digitClass_isDigitOfTwo, hpieces', ?_⟩
  · rw [hvalue]
    decide +kernel
  · exact (grammar_spec hlower').2.2.2 '٣' (by decide +kernel) (by decide) (by decide)

end Angle

end QuantumCircuit

import QuantumCircuit.Number.Decimal

/-!
# Numerals in a text

A numeral is read off the front of a text as far as it goes.  So a text that consists of a numeral
and of a rest that does not continue it is read back in these two parts (`Numeral.read_toText`),
and every text is read in such parts (`Numeral.read_spec`).
-/

namespace QuantumCircuit

namespace Text

variable {p : Char → Bool} {run run' rest rest' : List Char}

/-- The text does not begin with a character of the class. -/
def Stops (p : Char → Bool) (text : List Char) : Prop := ∀ c ∈ text.head?, p c = false

@[simp]
theorem stops_nil : Stops p [] := by simp [Stops]

@[simp]
theorem stops_cons {c : Char} : Stops p (c :: rest) ↔ p c = false := by simp [Stops]

/-- A text stops where its first piece has no character of the class and the rest stops. -/
theorem stops_append (hrun : ∀ c ∈ run, p c = false) (hrest : Stops p rest) :
    Stops p (run ++ rest) := by
  cases run with
  | nil => exact hrest
  | cons c run => exact stops_cons.2 (hrun c List.mem_cons_self)

theorem takeWhile_of_stops (hrun : ∀ c ∈ run, p c = true) (hrest : Stops p rest) :
    (run ++ rest).takeWhile p = run := by
  rw [List.takeWhile_append_of_pos hrun]
  cases rest with
  | nil => simp
  | cons c rest => simp [stops_cons.1 hrest]

theorem dropWhile_of_stops (hrun : ∀ c ∈ run, p c = true) (hrest : Stops p rest) :
    (run ++ rest).dropWhile p = rest := by
  rw [List.dropWhile_append_of_pos hrun]
  cases rest with
  | nil => rfl
  | cons c rest => simp [stops_cons.1 hrest]

theorem stops_dropWhile (p : Char → Bool) (text : List Char) : Stops p (text.dropWhile p) := by
  intro c hc
  have hnot := List.head?_dropWhile_not p text
  rw [Option.mem_def.1 hc] at hnot
  simpa using hnot

/-- A run of a class and a rest that does not continue it can be told apart. -/
theorem append_inj_of_stops (hrun : ∀ c ∈ run, p c = true) (hrest : Stops p rest)
    (hrun' : ∀ c ∈ run', p c = true) (hrest' : Stops p rest') (h : run ++ rest = run' ++ rest') :
    run = run' ∧ rest = rest' := by
  constructor
  · rw [← takeWhile_of_stops hrun hrest, h, takeWhile_of_stops hrun' hrest']
  · rw [← dropWhile_of_stops hrun hrest, h, dropWhile_of_stops hrun' hrest']

end Text

open Text

namespace Numeral

variable {n : Numeral} {rest : List Char}

/-- The numeral as it is written. -/
def toText (n : Numeral) : List Char := n.whole ++ if n.point then '.' :: n.fraction else []

/-- There are digits on both sides of the point, and none behind a point that is not there. -/
structure WellFormed (n : Numeral) : Prop where
  isDigit_whole : ∀ c ∈ n.whole, c.isDigit = true
  isDigit_fraction : ∀ c ∈ n.fraction, c.isDigit = true
  fraction_eq_nil : n.point = false → n.fraction = []

theorem WellFormed.of_mem (h : n.WellFormed) {c : Char} (hc : c ∈ n.toText) :
    c.isDigit = true ∨ c = '.' := by
  unfold toText at hc
  rcases List.mem_append.1 hc with hc | hc
  · exact .inl (h.isDigit_whole c hc)
  · split at hc
    · exact (List.mem_cons.1 hc).symm.imp_left (h.isDigit_fraction c)
    · cases hc

/-- The rest of a text does not continue the numeral. -/
structure EndsBefore (n : Numeral) (rest : List Char) : Prop where
  stops_digit : Stops Char.isDigit rest
  stops_point : n.point = false → Stops (· == '.') rest

/-- A numeral without a point is read back. -/
theorem read_digits {digits : List Char} (hdigits : ∀ c ∈ digits, c.isDigit = true)
    (hrest : Stops Char.isDigit rest) (hpoint : Stops (· == '.') rest) :
    read (digits ++ rest) = (⟨digits, false, []⟩, rest) := by
  rw [read, takeWhile_of_stops hdigits hrest, dropWhile_of_stops hdigits hrest]
  split
  · exact absurd (stops_cons.1 hpoint) (by decide)
  · rfl

/-- A numeral is read back from its text, whatever follows without continuing it. -/
theorem read_toText (h : n.WellFormed) (hend : n.EndsBefore rest) :
    read (n.toText ++ rest) = (n, rest) := by
  obtain ⟨whole, point, fraction⟩ := n
  cases point with
  | false =>
    obtain rfl : fraction = [] := h.fraction_eq_nil rfl
    rw [toText, if_neg Bool.false_ne_true, List.append_nil]
    exact read_digits h.isDigit_whole hend.stops_digit (hend.stops_point rfl)
  | true =>
    have hpoint : Stops Char.isDigit ('.' :: (fraction ++ rest)) := stops_cons.2 rfl
    have htake : (fraction ++ rest).takeWhile Char.isDigit = fraction :=
      takeWhile_of_stops h.isDigit_fraction hend.stops_digit
    have hdrop : (fraction ++ rest).dropWhile Char.isDigit = rest :=
      dropWhile_of_stops h.isDigit_fraction hend.stops_digit
    rw [toText, if_pos rfl, List.append_assoc, List.cons_append, read,
      takeWhile_of_stops h.isDigit_whole hpoint, dropWhile_of_stops h.isDigit_whole hpoint]
    change ((⟨whole, true, (fraction ++ rest).takeWhile Char.isDigit⟩ : Numeral),
      (fraction ++ rest).dropWhile Char.isDigit) = _
    rw [htake, hdrop]

/-- What is read off a text is a numeral as it is written there, up to a rest that does not
continue it. -/
theorem read_spec (text : List Char) :
    (read text).1.WellFormed ∧ (read text).1.EndsBefore (read text).2 ∧
      (read text).1.toText ++ (read text).2 = text := by
  have hwhole : ∀ c ∈ text.takeWhile Char.isDigit, c.isDigit = true := fun c hc =>
    List.all_eq_true.1 (List.all_takeWhile (p := Char.isDigit) (l := text)) c hc
  have hstops := stops_dropWhile Char.isDigit text
  have htext := List.takeWhile_append_dropWhile (p := Char.isDigit) (l := text)
  unfold read
  split
  · rename_i rest hrest
    rw [hrest] at htext
    refine ⟨⟨hwhole, fun c hc => List.all_eq_true.1 List.all_takeWhile c hc, nofun⟩,
      ⟨stops_dropWhile _ _, nofun⟩, ?_⟩
    rw [toText, if_pos rfl, List.append_assoc, List.cons_append, List.takeWhile_append_dropWhile,
      htext]
  · rename_i hpoint
    refine ⟨⟨hwhole, nofun, fun _ => rfl⟩, ⟨hstops, fun _ c hc => ?_⟩, ?_⟩
    · obtain ⟨rest, hrest⟩ := List.head?_eq_some_iff.1 (Option.mem_def.1 hc)
      refine beq_eq_false_iff_ne.2 fun heq => ?_
      exact hpoint rest (heq ▸ hrest)
    · rw [toText, if_neg Bool.false_ne_true, List.append_nil, htext]

end Numeral

end QuantumCircuit

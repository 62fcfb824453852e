import QuantumCircuit.Proofs.ProgramLines

/-!
# Letters in a program

Which letters the text of a program is made of.  A finite number is written with digits, a point
and a sign (`Binary64.mem_toText_finite`), and no name of an instruction has an `f` or a capital
`N`.  So the texts `inf` and `NaN` can only come from the angles:

* `not_mem_program` : a program has no `f` if no angle in it has one;
* `count_program` : it has a single `N`, that of its first line, if no angle in it has one.
-/

namespace QuantumCircuit

theorem Text.toString_string (text : String) : toString text = text := rfl

/-- What a joined list is made of: the separator and the parts. -/
theorem Text.mem_intercalate {α : Type} {a : α} {sep : List α} {parts : List (List α)}
    (h : a ∈ sep.intercalate parts) : a ∈ sep ∨ ∃ part ∈ parts, a ∈ part := by
  induction parts with
  | nil => simp [List.intercalate] at h
  | cons part rest ih =>
    cases rest with
    | nil => exact .inr ⟨part, List.mem_cons_self, by simpa [List.intercalate] using h⟩
    | cons next rest =>
      rw [List.intercalate_cons_cons, List.mem_append, List.mem_append] at h
      rcases h with (h | h) | h
      · exact .inr ⟨part, List.mem_cons_self, h⟩
      · exact .inl h
      · obtain hsep | ⟨other, hother, ha⟩ := ih h
        · exact .inl hsep
        · exact .inr ⟨other, List.mem_cons_of_mem _ hother, ha⟩

namespace Decimal

theorem mem_dropTrailingZeros {digits : List Char} {ch : Char}
    (h : ch ∈ dropTrailingZeros digits) : ch ∈ digits := by
  rw [dropTrailingZeros, List.mem_reverse] at h
  exact List.mem_reverse.1 ((List.dropWhile_sublist _).subset h)

/-- A decimal is written with digits and a point. -/
theorem mem_positional {d : Decimal} {ch : Char} (h : ch ∈ d.positional) :
    ch.isDigit = true ∨ ch = '.' := by
  have hdigits : ∀ {ch}, ch ∈ Nat.toDigits 10 d.digits → ch.isDigit = true :=
    Nat.isDigit_of_mem_toDigits (by decide) (by decide)
  have hzeros : ∀ {k}, ch ∈ List.replicate k '0' → ch.isDigit = true := by
    intro k hk
    rw [List.eq_of_mem_replicate hk]
    rfl
  unfold positional at h
  split at h
  · rcases List.mem_append.1 h with h | h
    · exact .inl (hdigits h)
    · exact .inl (hzeros h)
  · have hpadded : ∀ e, ch ∈ List.replicate e '0' ++ Nat.toDigits 10 d.digits →
        ch.isDigit = true := fun e h => (List.mem_append.1 h).elim hzeros hdigits
    simp only [splitPlaces] at h
    split at h
    · exact .inl (hpadded _ (List.mem_of_mem_take h))
    · rename_i hfraction
      rcases List.mem_append.1 h with h | h
      · exact .inl (hpadded _ (List.mem_of_mem_take h))
      rcases List.mem_cons.1 h with h | h
      · exact .inr h
      · exact .inl (hpadded _ (List.mem_of_mem_drop (mem_dropTrailingZeros h)))

end Decimal

namespace Binary64

/-- A finite number is written with digits, a point and a sign. -/
theorem mem_toText_finite {s : Bool} {m : Magnitude} {ch : Char}
    (h : ch ∈ (toString (finite s m)).toList) : ch.isDigit = true ∨ ch = '.' ∨ ch = '-' := by
  change ch ∈ (toText (finite s m)).toList at h
  rw [toText, String.toList_ofList, List.mem_append] at h
  rcases h with h | h
  · cases s <;> simp_all [signText]
  · split at h
    · rw [List.mem_singleton.1 h]
      exact .inl rfl
    · exact (Decimal.mem_positional h).imp_right .inl

theorem not_mem_toText {x : Binary64} {ch : Char} (hch : ch = 'f' ∨ ch = 'N')
    (hx : x.isFinite = true) : ch ∉ (toString x).toList := by
  cases x with
  | infinite s => cases hx
  | nan => cases hx
  | finite s m =>
    intro h
    rcases hch with rfl | rfl <;> exact absurd (mem_toText_finite h) (by decide)

end Binary64

namespace Instruction

variable {ch : Char}

theorem not_mem_natText (hch : ch = 'f' ∨ ch = 'N') (k : Nat) : ch ∉ (toString k).toList := by
  intro h
  have hdigit := Nat.isDigit_of_mem_toDigits (by decide) (by decide) (Nat.toList_repr ▸ h)
  rcases hch with rfl | rfl <;> cases hdigit

theorem not_mem_operandText (hch : ch = 'f' ∨ ch = 'N') (row : Nat) :
    ch ∉ (operandText row).toList := by
  have hrow := not_mem_natText hch row
  rcases hch with rfl | rfl <;> simpa [operandText, Text.toString_string] using hrow

/-- Neither letter is part of a separator. -/
theorem not_mem_joined (hch : ch = 'f' ∨ ch = 'N') {parts : List String}
    (hparts : ∀ part ∈ parts, ch ∉ part.toList) : ch ∉ (",".intercalate parts).toList := by
  rw [String.toList_intercalate]
  intro h
  rcases Text.mem_intercalate h with hsep | ⟨part, hpart, h⟩
  · rcases hch with rfl | rfl <;> exact absurd hsep (by decide)
  · obtain ⟨text, htext, rfl⟩ := List.mem_map.1 hpart
    exact hparts text htext h

/-- The letters come into a line by its name and its angles only. -/
theorem not_mem_gateText (hch : ch = 'f' ∨ ch = 'N') {name : String} {angles : List Binary64}
    {operands : List Nat} (hname : ch ∉ name.toList)
    (hangles : ∀ a ∈ angles, ch ∉ (toString a).toList) :
    ch ∉ (gate name angles operands).toText.toList := by
  have hoperands : ch ∉ (operandsText operands).toList :=
    not_mem_joined hch fun part hpart => by
      obtain ⟨row, -, rfl⟩ := List.mem_map.1 hpart
      exact not_mem_operandText hch row
  have hanglesText : ch ∉ (anglesText angles).toList := by
    unfold anglesText
    split
    · simp
    · have hparts : ∀ part ∈ angles.map toString, ch ∉ part.toList := by
        intro part hpart
        obtain ⟨a, ha, rfl⟩ := List.mem_map.1 hpart
        exact hangles a ha
      have hjoined := not_mem_joined hch hparts
      rcases hch with rfl | rfl <;> simpa using hjoined
  rcases hch with rfl | rfl <;> simp_all [toText, Text.toString_string]

theorem not_mem_measureText (hch : ch = 'f' ∨ ch = 'N') (row : Nat) :
    ch ∉ (measure row).toText.toList := by
  have hrow := not_mem_natText hch row
  rcases hch with rfl | rfl <;> simpa [toText, Text.toString_string] using hrow

end Instruction

/-- Neither letter is part of the name of an instruction. -/
theorem Kind.not_mem_name {ch : Char} (hch : ch = 'f' ∨ ch = 'N') {k : Kind} {name : String}
    (h : k.instructionName? = some name) : ch ∉ name.toList := by
  have hnames : ∀ k : Kind, ∀ name ∈ k.instructionName?, 'f' ∉ name.toList ∧ 'N' ∉ name.toList := by
    rintro (s | a | t | -)
    · cases s <;> decide
    · cases a <;> decide
    · cases t <;> decide
    · decide
  rcases hch with rfl | rfl
  · exact (hnames k name h).1
  · exact (hnames k name h).2

/-- The letters come into the line of a node by its angles only. -/
theorem Node.not_mem_line {ch : Char} (hch : ch = 'f' ∨ ch = 'N') {x : Node} {i : Instruction}
    (hangles : ∀ a ∈ x.angles, ch ∉ (toString a).toList) (h : x.instruction? = some i) :
    ch ∉ i.toText.toList := by
  unfold instruction? at h
  split at h
  · cases h
    exact Instruction.not_mem_measureText hch x.row
  · obtain ⟨name, hname, rfl⟩ := Option.map_eq_some_iff.1 h
    exact Instruction.not_mem_gateText hch (Kind.not_mem_name hch hname) hangles

namespace Circuit

variable {n d : Nat} {c : Circuit n d}

theorem toList_program (c : Circuit n d) :
    c.program.toList = ((preamble n).flatMap fun line => line.toList ++ ['\n']) ++
      (c.cells.filterMap c.lineAt).flatMap fun line => line.toList ++ ['\n'] := by
  rw [program, programLines_eq, String.toList_join, List.flatMap_map, List.flatMap_append]
  simp only [String.toList_append]
  rfl

/-- What comes before the lines of the gates, with the number of wires left open. -/
theorem toList_preamble (n : Nat) : ((preamble n).flatMap fun line => line.toList ++ ['\n']) =
    "OPENQASM 2.0;\ninclude \"qelib1.inc\";\nqreg q[".toList ++ n.repr.toList ++
      "];\ncreg c[".toList ++ n.repr.toList ++ "];\nid q;\n".toList := by
  simp only [preamble, List.flatMap_cons, List.flatMap_nil, String.toList_append,
    List.append_assoc]
  rfl

/-- The lines of the gates have neither letter if the angles have none. -/
theorem not_mem_lines {ch : Char} (hch : ch = 'f' ∨ ch = 'N')
    (hangles : ∀ cell, ∀ a ∈ (c.node cell).angles, ch ∉ (toString a).toList) :
    ch ∉ (c.cells.filterMap c.lineAt).flatMap fun line => line.toList ++ ['\n'] := by
  intro h
  obtain ⟨line, hline, h⟩ := List.mem_flatMap.1 h
  obtain ⟨cell, -, hcell⟩ := List.mem_filterMap.1 hline
  obtain ⟨i, hi, rfl⟩ := Option.map_eq_some_iff.1 hcell
  rcases List.mem_append.1 h with h | h
  · exact Node.not_mem_line hch (hangles cell) hi h
  · rcases hch with rfl | rfl <;> exact absurd h (by decide)

/-- A program whose angles have no `f` has none. -/
theorem not_mem_program (hangles : ∀ cell, ∀ a ∈ (c.node cell).angles, 'f' ∉ (toString a).toList) :
    'f' ∉ c.program.toList := by
  have hn := Instruction.not_mem_natText (.inl rfl) n
  rw [toList_program, toList_preamble]
  simp only [List.mem_append, not_or]
  exact ⟨⟨⟨⟨⟨by decide, hn⟩, by decide⟩, hn⟩, by decide⟩, not_mem_lines (.inl rfl) hangles⟩

/-- A program whose angles have no `N` has one, in the name of the language. -/
theorem count_program (hangles : ∀ cell, ∀ a ∈ (c.node cell).angles, 'N' ∉ (toString a).toList) :
    c.program.toList.count 'N' = 1 := by
  have hn : n.repr.toList.count 'N' = 0 :=
    List.count_eq_zero.2 (Instruction.not_mem_natText (.inr rfl) n)
  have hlines := List.count_eq_zero.2 (not_mem_lines (.inr rfl) hangles)
  rw [toList_program, toList_preamble]
  simp only [List.count_append, hn, hlines]
  decide

end Circuit

end QuantumCircuit

import Mathlib.Data.List.TakeWhile
import QuantumCircuit.Editor

/-!
# Lists of angles

A list of angles separates them by commas, and parts of it that are blank do not count.  So to read
two lists with a comma between them is to read the one and then the other
(`Angle.readList_append`), however many commas they have themselves.

* `Text.SplitsInto` : the pieces between the commas of a text, told by what they are joined to;
* `Editor.lists_joined` : how lists are read that are joined, in pieces, or partly blank, and which
  piece is the fault.
-/

namespace QuantumCircuit

-- The members of a list are checked one by one, whatever else is imported.
attribute [local instance (2000)] List.decidableBAll

namespace Text

variable {text : String} {pieces : List String}

/-- The text is the pieces with commas between them, and the pieces have no commas. -/
structure SplitsInto (text : String) (pieces : List String) : Prop where
  ne_nil : pieces ≠ []
  comma_notMem : ∀ piece ∈ pieces, ',' ∉ piece.toList
  intercalate_eq : ",".intercalate pieces = text

/-- A text of nothing but blanks. -/
def IsBlankText (text : String) : Prop := ∀ ch ∈ text.toList, isBlank ch = true

theorem SplitsInto.splitOn_eq (h : SplitsInto text pieces) :
    text.toList.splitOn ',' = pieces.map String.toList := by
  rw [← h.intercalate_eq, String.toList_intercalate]
  refine List.splitOn_intercalate ',' (fun piece hpiece => ?_) (by simpa using h.ne_nil)
  obtain ⟨piece, hmem, rfl⟩ := List.mem_map.1 hpiece
  exact h.comma_notMem piece hmem

theorem comma_notMem_of_mem_splitOn {chars piece : List Char} (h : piece ∈ chars.splitOn ',') :
    ',' ∉ piece := by
  induction chars generalizing piece with
  | nil =>
    rw [List.splitOn_nil, List.mem_singleton] at h
    rw [h]
    exact List.not_mem_nil
  | cons c rest ih =>
    obtain ⟨first, others, hrest⟩ := List.exists_cons_of_ne_nil (List.splitOn_ne_nil ',' rest)
    rw [List.splitOn_cons_eq_if_modifyHead, hrest] at h
    rw [hrest] at ih
    split at h <;> rcases List.mem_cons.1 h with rfl | hmem
    · exact List.not_mem_nil
    · exact ih hmem
    · -- The comma is neither the new character nor in what was the first piece before.
      rename_i hc
      rw [List.mem_cons, not_or]
      exact ⟨fun heq => hc (beq_iff_eq.2 heq.symm), ih List.mem_cons_self⟩
    · exact ih (List.mem_cons_of_mem _ hmem)

/-- No text is left out: each is in one piece or more. -/
theorem exists_splitsInto (text : String) : ∃ pieces, SplitsInto text pieces := by
  refine ⟨(text.toList.splitOn ',').map String.ofList, by simp, fun piece hpiece => ?_, ?_⟩
  · obtain ⟨chars, hchars, rfl⟩ := List.mem_map.1 hpiece
    rw [String.toList_ofList]
    exact comma_notMem_of_mem_splitOn hchars
  · rw [← String.toList_inj, String.toList_intercalate, List.map_map]
    simp

theorem trim_of_isBlankText (h : IsBlankText text) : trim text.toList = [] := by
  have hdrop : dropBlanks text.toList = [] := List.dropWhile_eq_nil_iff.2 h
  rw [trim, hdrop]
  rfl

/-- There is no comma among blanks. -/
theorem IsBlankText.splitsInto (h : IsBlankText text) : SplitsInto text [text] where
  ne_nil := by simp
  comma_notMem piece hpiece := by
    rw [List.mem_singleton.1 hpiece]
    exact fun hcomma => absurd (h ',' hcomma) (by decide)
  intercalate_eq := by simp

end Text

namespace Angle

/-! ### Parts -/

theorem parts_append (a b : String) : parts (a ++ "," ++ b) = parts a ++ parts b := by
  have htext : (a ++ "," ++ b).toList = a.toList ++ ',' :: b.toList := by simp
  rw [parts, htext, List.splitOn_append_cons_self, List.map_append, List.filter_append,
    List.map_append, parts, parts]

theorem parts_eq {text : String} {pieces : List String} (h : Text.SplitsInto text pieces) :
    parts text = (pieces.map Text.trimmed).filter (· != "") := by
  have hempty : ∀ piece : String,
      (Text.trimmed piece != "") = !(Text.trim piece.toList).isEmpty := by
    intro piece
    rw [Text.trimmed]
    cases Text.trim piece.toList <;> simp
  rw [parts, h.splitOn_eq, List.filter_map, List.filter_map, List.filter_map]
  simp only [Function.comp_def, hempty, List.map_map]
  rfl

theorem parts_of_isBlankText {text : String} (h : Text.IsBlankText text) : parts text = [] := by
  rw [parts_eq h.splitsInto]
  simp [Text.trimmed, Text.trim_of_isBlankText h]

/-! ### Lists -/

/-- Two lists are read one after the other. -/
theorem readList_append (a b : String) :
    readList (a ++ "," ++ b) = do
      let xs ← readList a
      let ys ← readList b
      return xs ++ ys := by
  rw [readList, parts_append, List.mapM_append]
  rfl

/-- A list is refused for its first part that is no angle. -/
theorem readList_eq (text : String) :
    readList text =
      match (parts text).find? fun part => (read? part).isNone with
      | some part => .error part
      | none => .ok ((parts text).filterMap read?) := by
  rw [readList]
  induction parts text with
  | nil => rfl
  | cons part rest ih =>
    rw [List.mapM_cons, ih, List.find?_cons, List.filterMap_cons]
    cases read? part with
    | none => rfl
    | some x =>
      simp only [Option.elim_some, Option.isNone_some]
      cases rest.find? fun part => (read? part).isNone <;> rfl

end Angle

namespace Editor

/-- How lists of angles are read.  Two lists with a comma between them give the angles of both, or
the fault of the first of them that has one.  In whatever pieces a text falls at its commas, it
gives the angles of the pieces that are not blank, unless one of these is no angle; then the first
such piece is the fault, without the blanks around it.  Blank pieces count for nothing, in front,
behind or between. -/
theorem lists_joined :
    (∀ a b : String, readAngles (a ++ "," ++ b) =
      match readAngles a, readAngles b with
      | .ok xs, .ok ys => .ok (xs ++ ys)
      | .error fault, _ => .error fault
      | .ok _, .error fault => .error fault) ∧
    (∀ text, ∃ pieces, Text.SplitsInto text pieces) ∧
    (∀ text pieces, Text.SplitsInto text pieces →
      readAngles text =
        match (pieces.map Text.trimmed).find? fun part =>
          part ≠ "" ∧ Angle.read? part = none with
        | some part => .error (.invalidAngle part)
        | none => .ok (((pieces.map Text.trimmed).filter (· != "")).filterMap Angle.read?)) ∧
    ∀ blank, Text.IsBlankText blank →
      readAngles blank = .ok [] ∧ ∀ a b : String,
        readAngles (blank ++ "," ++ b) = readAngles b ∧
        readAngles (a ++ "," ++ blank) = readAngles a ∧
        readAngles (a ++ "," ++ blank ++ "," ++ b) = readAngles (a ++ "," ++ b) := by
  have hjoined : ∀ a b : String, readAngles (a ++ "," ++ b) =
      match readAngles a, readAngles b with
      | .ok xs, .ok ys => .ok (xs ++ ys)
      | .error fault, _ => .error fault
      | .ok _, .error fault => .error fault := by
    intro a b
    rw [readAngles, readAngles, readAngles, Angle.readList_append]
    cases Angle.readList a with
    | error fault => rfl
    | ok xs => cases Angle.readList b <;> rfl
  refine ⟨hjoined, Text.exists_splitsInto, fun text pieces h => ?_, fun blank hblank => ?_⟩
  · rw [readAngles, Angle.readList_eq, Angle.parts_eq h, List.find?_filter]
    simp only [bne_iff_ne, Option.isNone_iff_eq_none]
    cases (pieces.map Text.trimmed).find? fun part => part ≠ "" ∧ Angle.read? part = none <;> rfl
  · have hnone : readAngles blank = .ok [] := by
      rw [readAngles, Angle.readList, Angle.parts_of_isBlankText hblank]
      rfl
    have hfront : ∀ b, readAngles (blank ++ "," ++ b) = readAngles b := fun b => by
      rw [hjoined, hnone]
      cases readAngles b <;> rfl
    have hback : ∀ a, readAngles (a ++ "," ++ blank) = readAngles a := fun a => by
      rw [hjoined, hnone]
      cases readAngles a with
      | ok xs =>
        dsimp only
        rw [List.append_nil]
      | error fault => rfl
    refine ⟨hnone, fun a b => ⟨hfront b, hback a, ?_⟩⟩
    rw [hjoined, hback, hjoined]

/-- A list with a blank piece, two pieces that are no angles, and one that is. -/
theorem lists_joined_faulty :
    Text.SplitsInto " pi/2,\t, nope,tau" [" pi/2", "\t", " nope", "tau"] ∧
      readAngles " pi/2,\t, nope,tau" = .error (.invalidAngle "nope") ∧
      Text.IsBlankText "\t" ∧
      readAngles (" pi/2" ++ "," ++ "\t" ++ "," ++ "0.5") = readAngles (" pi/2" ++ "," ++ "0.5") ∧
      (readAngles (" pi/2" ++ "," ++ "0.5")).isOk = true := by
  have hsplits : Text.SplitsInto " pi/2,\t, nope,tau" [" pi/2", "\t", " nope", "tau"] :=
    ⟨List.cons_ne_nil _ _, by decide, by decide +kernel⟩
  have hblank : Text.IsBlankText "\t" := by
    unfold Text.IsBlankText
    decide
  obtain ⟨-, -, hpieces, hnone⟩ := lists_joined
  refine ⟨hsplits, ?_, hblank, ((hnone "\t" hblank).2 " pi/2" "0.5").2.2, by decide +kernel⟩
  rw [hpieces _ _ hsplits]
  have hfirst : ([" pi/2", "\t", " nope", "tau"].map Text.trimmed).find? (fun part =>
      part ≠ "" ∧ Angle.read? part = none) = some "nope" := by
    decide +kernel
  rw [hfirst]

end Editor

end QuantumCircuit

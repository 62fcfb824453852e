import QuantumCircuit.Column.Placement

/-!
# Links in a column

What the scans of a column find, said in terms of the links of its nodes: `isLinked_iff`,
`isSpanned_iff`, `isStale_iff` and `controller?_eq_some`.  A row past the last wire has no links,
so none of the statements asks for a row in the column.

`reading_eq_empty_iff`, `reading_eq_control_iff` and `reading_eq_trace_iff` say when a row shows
nothing, a control input, or a passing wire.
-/

namespace QuantumCircuit

namespace Kind

theorem of_eq_plain {s : Symbol} (hs : s.isNull = true) (r c d : Bool) :
    of s r c d = plain s := by
  cases s <;> simp [Symbol.isNull] at hs <;> cases r <;> cases c <;> cases d <;> rfl

end Kind

namespace Node

/-- A node without a gate is of the kind of its symbol, whatever else it holds. -/
theorem kind_eq_plain_iff {x : Node} {s : Symbol} (hs : s.isNull = true) :
    x.kind = .plain s ↔ x.symbol = s := by
  constructor
  · intro h
    rw [← symbol_kind x, h]
    rfl
  · rintro rfl
    exact Kind.of_eq_plain hs ..

@[simp] theorem links_blank (row : Nat) : (blank row).links = [] := rfl
@[simp] theorem links_controlMark (row : Nat) : (controlMark row).links = [] := rfl
@[simp] theorem links_traceMark (row : Nat) : (traceMark row).links = [] := rfl
@[simp] theorem links_atRow (x : Node) (row : Nat) : (x.atRow row).links = x.links := rfl
@[simp] theorem controls_blank (row : Nat) : (blank row).controls = [] := rfl
@[simp] theorem controls_traceMark (row : Nat) : (traceMark row).controls = [] := rfl
@[simp] theorem controls_atRow (x : Node) (row : Nat) : (x.atRow row).controls = x.controls := rfl
@[simp] theorem symbol_blank (row : Nat) : (blank row).symbol = .empty := rfl
@[simp] theorem symbol_controlMark (row : Nat) : (controlMark row).symbol = .control := rfl
@[simp] theorem symbol_traceMark (row : Nat) : (traceMark row).symbol = .trace := rfl
@[simp] theorem symbol_atRow (x : Node) (row : Nat) : (x.atRow row).symbol = x.symbol := rfl

theorem atRow_blank (row r : Nat) : (blank row).atRow r = blank r := by simp only [blank, atRow]

theorem atRow_self {x : Node} {row : Nat} (h : x.row = row) : x.atRow row = x := by
  rw [← h]
  rfl

theorem mem_links_of_mem_controls {x : Node} {row : Nat} (h : row ∈ x.controls) :
    row ∈ x.links :=
  mem_links.2 (.inl h)

theorem controls_eq_nil_iff {x : Node} :
    x.controls = [] ↔ x.control = none ∧ x.secondControl = none := by
  cases ha : x.control <;> cases hb : x.secondControl <;> simp [controls, ha, hb]

theorem controls_eq_nil_of_links {x : Node} (h : x.links = []) : x.controls = [] :=
  (List.append_eq_nil_iff.1 h).1

end Node

namespace Column

variable {n : Nat} {c : Column n}

theorem lt_of_links_ne_nil {row : Nat} (h : (c.node row).links ≠ []) : row < n := by
  refine Nat.lt_of_not_le fun hrow => h ?_
  rw [c.node_of_le hrow, Node.links_blank]

theorem lt_of_mem_links {row link : Nat} (h : link ∈ (c.node row).links) : row < n :=
  lt_of_links_ne_nil (List.ne_nil_of_mem h)

theorem isBetween_iff {a b row : Nat} :
    isBetween a b row = true ↔ a < row ∧ row < b ∨ b < row ∧ row < a := by
  simp only [isBetween, Bool.and_eq_true, decide_eq_true_eq]
  omega

/-! ### Scans -/

theorem isLinked_iff {except : List Nat} {row : Nat} :
    c.isLinked except row = true ↔
      ∃ other, other ≠ row ∧ other ∉ except ∧ row ∈ (c.node other).links := by
  simp only [isLinked, List.any_eq_true, mem_rows, Bool.and_eq_true, bne_iff_ne,
    Bool.not_eq_true', List.contains_iff_mem, ← Bool.not_eq_true]
  constructor
  · rintro ⟨other, -, ⟨hne, hex⟩, hmem⟩
    exact ⟨other, hne, hex, hmem⟩
  · rintro ⟨other, hne, hex, hmem⟩
    exact ⟨other, lt_of_mem_links hmem, ⟨hne, hex⟩, hmem⟩

theorem isSpanned_iff {except row : Nat} :
    c.isSpanned except row = true ↔
      ∃ other, other ≠ except ∧ ∃ link ∈ (c.node other).links, isBetween other link row := by
  simp only [isSpanned, List.any_eq_true, mem_rows, Bool.and_eq_true, bne_iff_ne]
  constructor
  · rintro ⟨other, -, hne, h⟩
    exact ⟨other, hne, h⟩
  · rintro ⟨other, hne, link, hmem, h⟩
    exact ⟨other, lt_of_mem_links hmem, hne, link, hmem, h⟩

/-- The marks that a node leaves behind: those on its controls, and the passing wires that no
link needs any more. -/
theorem isStale_iff {row : Nat} {keep : List Nat} {r : Nat} :
    c.isStale row keep r = true ↔
      (r ∈ (c.node row).controls ∧ (c.node r).symbol = .control) ∨
        ((∃ link ∈ (c.node row).links, isBetween row link r) ∧ (c.node r).symbol = .trace ∧
          (∀ kept ∈ keep, ¬ isBetween row kept r) ∧ c.isSpanned row r = false) := by
  simp only [isStale, Bool.or_eq_true, Bool.and_eq_true, List.contains_iff_mem, beq_iff_eq,
    List.any_eq_true, Bool.not_eq_true', Bool.or_eq_false_iff, List.any_eq_false]
  constructor
  · rintro (h | ⟨link, hmem, ⟨hbetween, hsymbol⟩, hkeep, hspan⟩)
    · exact .inl h
    · exact .inr ⟨⟨link, hmem, hbetween⟩, hsymbol, hkeep, hspan⟩
  · rintro (h | ⟨⟨link, hmem, hbetween⟩, hsymbol, hkeep, hspan⟩)
    · exact .inl h
    · exact .inr ⟨link, hmem, ⟨hbetween, hsymbol⟩, hkeep, hspan⟩

theorem isStale_of_links_nil {row : Nat} (h : (c.node row).links = []) (keep : List Nat)
    (r : Nat) : c.isStale row keep r = false := by
  simp [isStale, h, Node.controls_eq_nil_of_links h]

/-- Only marks are ever stale. -/
theorem isNull_of_isStale {row : Nat} {keep : List Nat} {r : Nat}
    (h : c.isStale row keep r = true) : (c.node r).symbol.isNull = true := by
  rcases isStale_iff.1 h with ⟨-, hs⟩ | ⟨-, hs, -⟩ <;> rw [hs] <;> rfl

/-! ### Readings -/

theorem controller?_eq_some {row gate : Nat} (h : c.controller? row = some gate) :
    gate ≠ row ∧ row ∈ (c.node gate).controls := by
  have := List.find?_some h
  simpa only [Bool.and_eq_true, bne_iff_ne, List.contains_iff_mem] using this

theorem isSome_controller?_iff {row : Nat} :
    (c.controller? row).isSome = true ↔ ∃ gate, gate ≠ row ∧ row ∈ (c.node gate).controls := by
  simp only [controller?, List.find?_isSome, mem_rows, Bool.and_eq_true, bne_iff_ne,
    List.contains_iff_mem]
  constructor
  · rintro ⟨gate, -, h⟩
    exact ⟨gate, h⟩
  · rintro ⟨gate, hne, hmem⟩
    exact ⟨gate, lt_of_mem_links (Node.mem_links_of_mem_controls hmem), hne, hmem⟩

theorem isPartner_iff {row : Nat} :
    c.isPartner row = true ↔ ∃ gate, gate ≠ row ∧ (c.node gate).partner = some row := by
  simp only [isPartner, List.any_eq_true, mem_rows, Bool.and_eq_true, bne_iff_ne, beq_iff_eq]
  constructor
  · rintro ⟨gate, -, h⟩
    exact ⟨gate, h⟩
  · rintro ⟨gate, hne, hmem⟩
    exact ⟨gate, lt_of_mem_links (Node.mem_links.2 (.inr hmem)), hne, hmem⟩

/-- A row that shows nothing holds nothing, and no node elsewhere is linked to it. -/
theorem reading_eq_empty_iff {row : Nat} :
    c.reading row = .empty ↔
      (c.node row).symbol = .empty ∧ ∀ gate, gate ≠ row → row ∉ (c.node gate).links := by
  have hlinks : (∀ gate, gate ≠ row → row ∉ (c.node gate).links) ↔
      ¬ (c.controller? row).isSome = true ∧ ¬ c.isPartner row = true := by
    simp only [isSome_controller?_iff, isPartner_iff, Node.mem_links, not_or, not_exists, not_and,
      ← forall_and]
  rw [hlinks, ← Node.kind_eq_plain_iff (by rfl : Symbol.isNull .empty = true)]
  unfold reading
  by_cases hk : (c.node row).kind = .empty
  · by_cases hc : (c.controller? row).isSome = true <;>
      by_cases hp : c.isPartner row = true <;> simp [hk, hc, hp]
  · simp [hk]

theorem reading_eq_control_iff {row : Nat} :
    c.reading row = .control ↔
      (c.node row).symbol = .control ∨
        ((c.node row).symbol = .empty ∧ (c.controller? row).isSome = true) := by
  rw [← Node.kind_eq_plain_iff (by rfl : Symbol.isNull .empty = true),
    ← Node.kind_eq_plain_iff (by rfl : Symbol.isNull .control = true)]
  unfold reading
  by_cases hk : (c.node row).kind = .empty
  · by_cases hc : (c.controller? row).isSome = true <;>
      by_cases hp : c.isPartner row = true <;> simp [hk, hc, hp]
  · simp [hk]

theorem reading_eq_trace_iff {row : Nat} :
    c.reading row = .trace ↔ (c.node row).symbol = .trace := by
  rw [← Node.kind_eq_plain_iff (by rfl : Symbol.isNull .trace = true)]
  unfold reading
  by_cases hk : (c.node row).kind = .empty
  · by_cases hc : (c.controller? row).isSome = true <;>
      by_cases hp : c.isPartner row = true <;> simp [hk, hc, hp]
  · simp [hk]

theorem isFree_iff {row : Nat} :
    c.isFree row = true ↔ c.reading row = .empty ∨ (c.node row).symbol = .trace := by
  simp [isFree, ← reading_eq_trace_iff]

theorem isFree_iff_reading {row : Nat} :
    c.isFree row = true ↔ c.reading row = .empty ∨ c.reading row = .trace := by
  rw [isFree, Bool.or_eq_true, beq_iff_eq, beq_iff_eq]

end Column

end QuantumCircuit

import QuantumCircuit.Proofs.Column.Attachment

/-!
# Searching for a row

A gesture that links a gate tries one row after the other.  All that a row can have against the link
is that it is occupied, since the gate takes the link in any row; so the search ends in the first
free row, and the order of the rows decides which one that is.

* `NearestFreeRow` : the free row that is nearest to the gate, the upper one of two.  It is the first
  free one of `nearestRows` (`find?_nearestRows_cases`), which are ordered by `Nearer`;
* `FreeNeighbour` : the free row next to the gate, the upper one of two;
* `Tidy.addSecondControl_cases`, `Tidy.toggleSwap_cases`, `Tidy.toggleControl_cases` : a gesture
  links the gate to that row, or is refused because there is none.
-/

namespace QuantumCircuit

namespace Column

variable {n : Nat} {c : Column n} {gate row : Nat}

/-! ### Free rows -/

/-- The row can be linked to the gate in another row: it shows nothing or a passing wire. -/
structure FreeRow (c : Column n) (gate row : Nat) : Prop where
  row_lt : row < n
  ne : row ≠ gate
  reading : c.reading row = .empty ∨ c.reading row = .trace

/-- Seen from a row, the row `a` comes before `b`: it is nearer, or as near and further up. -/
def Nearer (row a b : Nat) : Prop :=
  distance row a < distance row b ∨ distance row a = distance row b ∧ a < b

/-- The free row that comes before all others, seen from the gate. -/
structure NearestFreeRow (c : Column n) (gate row : Nat) : Prop extends c.FreeRow gate row where
  nearest : ∀ r, c.FreeRow gate r → r = row ∨ Nearer gate row r

/-- The free row above the gate, or the one below it if there is none above. -/
structure FreeNeighbour (c : Column n) (gate row : Nat) : Prop extends c.FreeRow gate row where
  neighbour : row + 1 = gate ∨ gate + 1 = row ∧ ∀ r, r + 1 = gate → ¬ c.FreeRow gate r

instance (c : Column n) (gate row : Nat) : Decidable (c.FreeRow gate row) :=
  decidable_of_iff (row < n ∧ row ≠ gate ∧ (c.reading row = .empty ∨ c.reading row = .trace))
    ⟨fun ⟨hlt, hne, hreading⟩ => ⟨hlt, hne, hreading⟩, fun h => ⟨h.row_lt, h.ne, h.reading⟩⟩

instance (row a b : Nat) : Decidable (Nearer row a b) :=
  inferInstanceAs (Decidable (_ ∨ _ ∧ _))

instance (c : Column n) (gate row : Nat) : Decidable (c.NearestFreeRow gate row) :=
  decidable_of_iff
    (c.FreeRow gate row ∧ ∀ r < n, c.FreeRow gate r → r = row ∨ Nearer gate row r)
    ⟨fun ⟨hfree, hnearest⟩ => ⟨hfree, fun r hr => hnearest r hr.row_lt hr⟩,
      fun h => ⟨h.toFreeRow, fun r _ hr => h.nearest r hr⟩⟩

/-- There is only one nearest free row. -/
theorem NearestFreeRow.unique {r : Nat} (h : c.NearestFreeRow gate row)
    (h' : c.NearestFreeRow gate r) : r = row := by
  have hrow := h.nearest r h'.toFreeRow
  have hr := h'.nearest row h.toFreeRow
  unfold Nearer at hrow hr
  omega

theorem FreeRow.isFree (h : c.FreeRow gate row) : c.isFree row = true :=
  isFree_iff_reading.2 h.reading

theorem FreeRow.attachable (h : c.FreeRow gate row) (hgate : gate < n) {l : Link}
    (hallows : l.Allows (c.node gate) row) : c.Attachable l gate row :=
  ⟨hgate, h.row_lt, hallows, h.ne, h.isFree⟩

/-! ### The rows that are tried -/

theorem mem_rowsAt (hrow : row < n) {k r : Nat} :
    r ∈ c.rowsAt row k ↔ r < n ∧ distance row r = k := by
  simp only [rowsAt, distance]
  split_ifs <;> simp <;> omega

/-- A search far away goes through all other rows. -/
theorem mem_nearestRows (hrow : row < n) {r : Nat} : r ∈ c.nearestRows row ↔ r < n ∧ r ≠ row := by
  simp only [nearestRows, List.mem_flatMap, List.mem_range'_1, mem_rowsAt hrow]
  constructor
  · rintro ⟨k, hk, hlt, hdistance⟩
    refine ⟨hlt, ?_⟩
    rintro rfl
    simp only [distance] at hdistance
    omega
  · rintro ⟨hlt, hne⟩
    refine ⟨distance row r, ?_, hlt, rfl⟩
    simp only [distance]
    omega

theorem pairwise_nearestRows (hrow : row < n) : (c.nearestRows row).Pairwise (Nearer row) := by
  rw [nearestRows, List.pairwise_flatMap]
  constructor
  · intro k hk
    have hpos := (List.mem_range'_1.1 hk).1
    simp only [rowsAt]
    split_ifs <;> simp [Nearer, distance]
    omega
  · refine List.Pairwise.imp (fun {j k} hlt => ?_) (List.pairwise_lt_range' (s := 1) (n := n - 1))
    intro a ha b hb
    exact .inl (by rwa [((mem_rowsAt hrow).1 ha).2, ((mem_rowsAt hrow).1 hb).2])

theorem mem_neighbours {r : Nat} :
    r ∈ c.neighbours row ↔ r + 1 = row ∨ row + 1 = r ∧ r < n := by
  rw [neighbours, List.mem_append, Option.mem_toList, Option.mem_toList,
    Direction.nextRow?_up_iff, Direction.nextRow?_down_iff]

theorem pairwise_neighbours : (c.neighbours row).Pairwise (· < ·) := by
  rw [neighbours, List.pairwise_append]
  refine ⟨by cases Direction.up.nextRow? n row <;> simp,
    by cases Direction.down.nextRow? n row <;> simp, fun a ha b hb => ?_⟩
  rw [Option.mem_toList, Direction.nextRow?_up_iff] at ha
  rw [Option.mem_toList, Direction.nextRow?_down_iff] at hb
  omega

/-! ### The row that is found -/

/-- The first hit in an ordered list comes before all other hits. -/
theorem find?_eq_some_of_pairwise {R : Nat → Nat → Prop} {rows : List Nat} {p : Nat → Bool}
    (hordered : rows.Pairwise R) (hfind : rows.find? p = some row) :
    row ∈ rows ∧ p row = true ∧ ∀ r ∈ rows, p r = true → r = row ∨ R row r := by
  obtain ⟨hrow, before, after, rfl, hbefore⟩ := List.find?_eq_some_iff_append.1 hfind
  rw [List.pairwise_append, List.pairwise_cons] at hordered
  refine ⟨List.mem_of_find?_eq_some hfind, hrow, fun r hr hp => ?_⟩
  rcases List.mem_append.1 hr with hr | hr
  · have hmiss := hbefore r hr
    rw [hp] at hmiss
    cases hmiss
  · exact (List.mem_cons.1 hr).imp_right (hordered.2.1.1 r)

theorem find?_nearestRows_cases (hgate : gate < n) :
    (∃ row, (c.nearestRows gate).find? c.isFree = some row ∧ c.NearestFreeRow gate row) ∨
      (c.nearestRows gate).find? c.isFree = none ∧ ∀ row, ¬ c.FreeRow gate row := by
  have hmem : ∀ {r}, c.FreeRow gate r → r ∈ c.nearestRows gate := fun hr =>
    (mem_nearestRows hgate).2 ⟨hr.row_lt, hr.ne⟩
  cases hfind : (c.nearestRows gate).find? c.isFree with
  | some row =>
    obtain ⟨hrow, hfree, hfirst⟩ := find?_eq_some_of_pairwise (pairwise_nearestRows hgate) hfind
    obtain ⟨hlt, hne⟩ := (mem_nearestRows hgate).1 hrow
    exact .inl ⟨row, rfl, ⟨hlt, hne, isFree_iff_reading.1 hfree⟩,
      fun r hr => hfirst r (hmem hr) hr.isFree⟩
  | none =>
    exact .inr ⟨rfl, fun row hrow => List.find?_eq_none.1 hfind row (hmem hrow) hrow.isFree⟩

theorem find?_neighbours_cases (hgate : gate < n) :
    (∃ row, (c.neighbours gate).find? c.isFree = some row ∧ c.FreeNeighbour gate row) ∨
      (c.neighbours gate).find? c.isFree = none ∧ ∀ row, ¬ c.FreeNeighbour gate row := by
  cases hfind : (c.neighbours gate).find? c.isFree with
  | some row =>
    obtain ⟨hrow, hfree, hfirst⟩ := find?_eq_some_of_pairwise pairwise_neighbours hfind
    have hnext := mem_neighbours.1 hrow
    refine .inl ⟨row, rfl, ⟨by omega, by omega, isFree_iff_reading.1 hfree⟩,
      hnext.imp_right fun ⟨hbelow, _⟩ => ⟨hbelow, fun r habove hr => ?_⟩⟩
    have := hfirst r (mem_neighbours.2 (.inl habove)) hr.isFree
    omega
  | none =>
    refine .inr ⟨rfl, fun row hrow => ?_⟩
    have hmem : row ∈ c.neighbours gate :=
      mem_neighbours.2 (hrow.neighbour.imp_right fun h => ⟨h.1, hrow.row_lt⟩)
    exact List.find?_eq_none.1 hfind row hmem hrow.isFree

/-! ### The outcome of a search -/

section

variable {α : Type} {attempt : Nat → Except (EditError Nat) α} {fault : EditError Nat}
  {p : Nat → Bool} {f : Nat → α} {g : Nat → EditError Nat} {rows : List Nat}

/-- If rows are refused only because they are occupied, the first other one is taken. -/
theorem firstUnoccupied_eq
    (h : ∀ r ∈ rows, attempt r = if p r then .ok (f r) else .error (g r))
    (hg : ∀ r, (g r).isOccupied = true) :
    firstUnoccupied attempt fault rows = (rows.find? p).elim (.error fault) fun r => .ok (f r) := by
  induction rows with
  | nil => rfl
  | cons r rest ih =>
    obtain ⟨hr, hrest⟩ := List.forall_mem_cons.1 h
    rw [firstUnoccupied, hr, List.find?_cons]
    cases p r with
    | true => rfl
    | false =>
      simp only [Bool.false_eq_true, if_false, hg, if_true]
      exact ih hrest

/-- The first row that is not refused is taken, and if there is none, the last refusal counts. -/
theorem firstSuccess_eq
    (h : ∀ r ∈ rows, attempt r = if p r then .ok (f r) else .error (g r)) :
    firstSuccess attempt fault rows =
      (rows.find? p).elim (.error (rows.getLast?.elim fault g)) fun r => .ok (f r) := by
  induction rows generalizing fault with
  | nil => rfl
  | cons r rest ih =>
    obtain ⟨hr, hrest⟩ := List.forall_mem_cons.1 h
    rw [firstSuccess, hr, List.find?_cons]
    cases p r with
    | true => rfl
    | false =>
      simp only [Bool.false_eq_true, if_false]
      rw [ih hrest, List.getLast?_cons]
      cases rest.getLast? <;> rfl

/-- A search comes to the row that is found, or to a refusal. -/
theorem outcome_of_found {found : Option Nat} {result : Except (EditError Nat) α}
    {Chosen : Nat → Prop} {Nowhere : Prop}
    (hfound : (∃ row, found = some row ∧ Chosen row) ∨ found = none ∧ Nowhere)
    (hresult : result = found.elim (.error fault) fun r => .ok (f r)) :
    (∃ row, Chosen row ∧ result = .ok (f row)) ∨ Nowhere ∧ result = .error fault := by
  rcases hfound with ⟨row, rfl, hrow⟩ | ⟨rfl, hno⟩
  · exact .inl ⟨row, hrow, hresult⟩
  · exact .inr ⟨hno, hresult⟩

end

/-! ### Gestures -/

theorem Tidy.addSecondControl_cases (h : c.Tidy) (hgate : gate < n)
    (hallows : ∀ row, Link.secondControl.Allows (c.node gate) row) :
    (∃ row, c.NearestFreeRow gate row ∧
      c.addSecondControl gate = .ok (c.withLink .secondControl gate row, row)) ∨
    (∀ row, ¬ c.FreeRow gate row) ∧ c.addSecondControl gate = .error (.blocked gate) := by
  refine outcome_of_found (f := fun row => (c.withLink .secondControl gate row, row))
    (find?_nearestRows_cases hgate) ?_
  rw [addSecondControl, checkRow, if_pos hgate]
  refine firstUnoccupied_eq (fun r hr => ?_) (g := c.occupied) fun _ => rfl
  obtain ⟨hlt, hne⟩ := (mem_nearestRows hgate).1 hr
  have hattach : c.attachSecondControl gate r = _ :=
    h.attach_eq (l := .secondControl) hgate hlt (hallows r) hne
  rw [hattach]
  split_ifs <;> rfl

theorem Tidy.toggleSwap_cases (h : c.Tidy) (hgate : gate < n) (hs : (c.node gate).symbol = .swap)
    (hpartner : (c.node gate).partner = none) :
    (∃ row, c.NearestFreeRow gate row ∧
      c.toggleSwap gate = .ok (c.withLink .partner gate row)) ∨
    (∀ row, ¬ c.FreeRow gate row) ∧ c.toggleSwap gate = .error (.occupied gate .swap) := by
  refine outcome_of_found (find?_nearestRows_cases hgate) ?_
  rw [toggleSwap, checkRow, if_pos hgate, hpartner]
  refine firstUnoccupied_eq (fun r hr => ?_) (g := c.occupied) fun _ => rfl
  obtain ⟨hlt, hne⟩ := (mem_nearestRows hgate).1 hr
  exact h.attach_eq (l := .partner) hgate hlt hs hne

theorem Tidy.toggleControl_cases (h : c.Tidy) (hgate : gate < n)
    (hcontrols : (c.node gate).controls = [])
    (hallows : ∀ row, Link.control.Allows (c.node gate) row) :
    (∃ row, c.FreeNeighbour gate row ∧
      c.toggleControl gate = .ok (c.withLink .control gate row)) ∨
    (∀ row, ¬ c.FreeNeighbour gate row) ∧ ∃ fault, c.toggleControl gate = .error fault := by
  have hresult : c.toggleControl gate = ((c.neighbours gate).find? c.isFree).elim
      (.error ((c.neighbours gate).getLast?.elim (.blocked gate) c.occupied))
      fun row => .ok (c.withLink .control gate row) := by
    rw [toggleControl, checkRow, if_pos hgate, hcontrols]
    refine firstSuccess_eq fun r hr => ?_
    have hnext := mem_neighbours.1 hr
    exact h.attach_eq (l := .control) hgate (by omega) (hallows r) (by omega)
  exact (outcome_of_found (find?_neighbours_cases hgate) hresult).imp_right
    (And.imp_right fun herror => ⟨_, herror⟩)

end Column

end QuantumCircuit

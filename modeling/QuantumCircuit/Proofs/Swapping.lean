import QuantumCircuit.Proofs.Search

/-!
# Why a swap has no partner

Whether a node can have a partner at all is looked at for each row that the search comes to, and
not before the search.  So a node that is no swap is refused in the first of these rows, for its
kind.  With a single wire there is no such row, and then every node is refused as a swap that finds
its row taken.

* `Column.Tidy.toggleSwap_eq_error_iff` : when a column refuses to pair or to part a swap, and why;
* `Editor.toggleSwap_refusals` : the same of the command, in an edited circuit;
* `Editor.lone_gate_told_occupied` : an X gate on a single wire that is told to be a swap.
-/

namespace QuantumCircuit

/-- A node without its partner keeps its controls. -/
theorem Node.links_dropPartner_sublist (x : Node) :
    List.Sublist (Node.links { x with partner := none }) x.links :=
  (List.nil_sublist _).append_left _

namespace Column

variable {n : Nat} {c : Column n} {gate row : Nat}

/-! ### Nodes that are no swaps -/

/-- A search ends at the first row if it is refused there for something else than being taken. -/
theorem firstUnoccupied_of_refused {α : Type} {attempt : Nat → Except (EditError Nat) α}
    {fault cause : EditError Nat} {rows : List Nat} (hrows : rows ≠ [])
    (h : ∀ r ∈ rows, attempt r = .error cause) (hcause : cause.isOccupied = false) :
    firstUnoccupied attempt fault rows = .error cause := by
  cases rows with
  | nil => exact absurd rfl hrows
  | cons r rest =>
    rw [firstUnoccupied, h r List.mem_cons_self]
    simp only [hcause, Bool.false_eq_true, if_false]

/-- There is another row to try unless the column has one row only. -/
theorem nearestRows_ne_nil (hgate : gate < n) (hn : 1 < n) : c.nearestRows gate ≠ [] := by
  refine List.ne_nil_of_mem (a := if gate = 0 then 1 else 0) ?_
  rw [mem_nearestRows hgate]
  split_ifs <;> omega

theorem nearestRows_one {c : Column 1} : c.nearestRows gate = [] := rfl

theorem attachPartner_of_symbol_ne (hgate : gate < n) (hrow : row < n)
    (hs : (c.node gate).symbol ≠ .swap) :
    c.attachPartner gate row = .error (.unswappable (c.node gate).kind) := by
  rw [attachPartner, checkRow, checkRow, if_pos hgate, if_pos hrow]
  exact if_neg (by simpa using hs)

theorem Tidy.partner_eq_none (h : c.Tidy) (hs : (c.node gate).symbol ≠ .swap) :
    (c.node gate).partner = none := by
  by_contra hpartner
  exact hs ((h.proper gate).symbol_of_partner (Option.isSome_iff_ne_none.2 hpartner))

theorem Tidy.toggleSwap_of_symbol_ne (h : c.Tidy) (hgate : gate < n)
    (hs : (c.node gate).symbol ≠ .swap) :
    c.toggleSwap gate =
      .error (if n = 1 then .occupied gate .swap else .unswappable (c.node gate).kind) := by
  rw [toggleSwap, checkRow, if_pos hgate, h.partner_eq_none hs]
  change firstUnoccupied (c.attachPartner gate) (.occupied gate .swap) (c.nearestRows gate) = _
  split_ifs with hn
  · subst hn
    rw [nearestRows_one]
    rfl
  · refine firstUnoccupied_of_refused (nearestRows_ne_nil hgate (by omega)) (fun r hr => ?_) rfl
    exact attachPartner_of_symbol_ne hgate ((mem_nearestRows hgate).1 hr).1 hs

/-! ### Swaps -/

/-- A swap can always be parted from its partner. -/
theorem Tidy.toggleSwap_of_partner (h : c.Tidy) (hgate : gate < n)
    (hpartner : (c.node gate).partner.isSome = true) :
    ∃ d, c.toggleSwap gate = .ok d := by
  have hfits : c.Fits gate { c.node gate with partner := none } :=
    h.fits_of_sublist hgate (c.node gate).links_dropPartner_sublist (h.controlsAct gate)
  refine ⟨c.overwrite gate { c.node gate with partner := none }, ?_⟩
  rw [toggleSwap, checkRow, if_pos hgate]
  change (if _ then _ else _) = _
  rw [if_pos hpartner, place_eq_ok_iff, placeFault?_eq_none_iff]
  exact ⟨hfits, rfl⟩

/-- A node with a partner stands in a column of several rows. -/
theorem Tidy.ne_one_of_partner (h : c.Tidy) (hgate : gate < n)
    (hpartner : (c.node gate).partner ≠ none) : n ≠ 1 := by
  obtain ⟨p, hp⟩ := Option.ne_none_iff_exists'.1 hpartner
  have hlink : p ∈ (c.node gate).links := Node.mem_links.2 (.inr hp)
  have hlt := h.lt_of_mem hlink
  have hne := h.ne_of_mem hlink
  omega

/-! ### The faults -/

/-- A toggle of a swap is refused for the kind of a node that is no swap, and for the row of the
swap if it has no partner and finds none; but with one row only everything is refused so. -/
theorem Tidy.toggleSwap_eq_error_iff (h : c.Tidy) (hgate : gate < n) {fault : EditError Nat} :
    c.toggleSwap gate = .error fault ↔
      ((c.node gate).symbol ≠ .swap ∧ n ≠ 1 ∧ fault = .unswappable (c.node gate).kind) ∨
      (fault = .occupied gate .swap ∧
        (n = 1 ∨ (c.node gate).symbol = .swap ∧ (c.node gate).partner = none ∧
          ∀ row, ¬ c.FreeRow gate row)) := by
  by_cases hs : (c.node gate).symbol = .swap
  · by_cases hpartner : (c.node gate).partner = none
    · rcases h.toggleSwap_cases hgate hs hpartner with ⟨row, hrow, hok⟩ | ⟨hno, herror⟩
      · have hlt := hrow.row_lt
        have hne := hrow.ne
        refine iff_of_false (by rw [hok]; nofun) ?_
        rintro (⟨hswap, -⟩ | ⟨-, hn | ⟨-, -, hno⟩⟩)
        · exact hswap hs
        · omega
        · exact hno row hrow.toFreeRow
      · rw [herror]
        simp [hs, hpartner, hno, eq_comm]
    · have hn := h.ne_one_of_partner hgate hpartner
      obtain ⟨d, hok⟩ := h.toggleSwap_of_partner hgate (Option.isSome_iff_ne_none.2 hpartner)
      rw [hok]
      simp [hs, hn, hpartner]
  · rw [h.toggleSwap_of_symbol_ne hgate hs]
    split_ifs with hn <;> simp [hs, hn, eq_comm]

end Column

namespace Editor

variable {n d : Nat} {e : Editor n d}

/-- The command is refused for what the column refuses it for. -/
theorem refuses_toggleSwap_iff {cell : Cell} (hcol : cell.col < d) {fault : EditError Cell} :
    e.Refuses (.toggleSwap cell) fault ↔
      ∃ cause, (e.circuit.column cell.col).toggleSwap cell.row = .error cause ∧
        cause.map (⟨·, cell.col⟩) = fault := by
  have hedit : attempt e.circuit (.toggleSwap cell) = e.circuit.edit cell fun column =>
      silently (column.toggleSwap cell.row) := rfl
  exact refuses_iff_of_silent hcol hedit

/-- When toggling a swap is refused in an edited circuit, and what is told.  A node that is no swap
is refused for its kind if there is more than one wire, and nothing changes; on a single wire it is
refused for its cell, which is told to be taken by a swap.  Apart from that only a swap without a
partner that finds no free row is told so, and nothing else is refused. -/
theorem toggleSwap_refusals (h : e.circuit.EditReachable) {cell : Cell}
    (hcell : e.circuit.contains cell = true) :
    ((e.circuit.node cell).kind.symbol ≠ .swap →
      e.Refuses (.toggleSwap cell)
        (if n = 1 then .occupied cell .swap else .unswappable (e.circuit.node cell).kind)) ∧
    ∀ fault, e.Refuses (.toggleSwap cell) fault ↔
      ((e.circuit.node cell).kind.symbol ≠ .swap ∧ n ≠ 1 ∧
        fault = .unswappable (e.circuit.node cell).kind) ∨
      (fault = .occupied cell .swap ∧
        (n = 1 ∨ (e.circuit.node cell).kind.symbol = .swap ∧
          (e.circuit.node cell).partner = none ∧
          ∀ row, ¬ (e.circuit.column cell.col).FreeRow cell.row row)) := by
  obtain ⟨hrow, hcol⟩ := Circuit.contains_iff.1 hcell
  have htidy := h.tidy cell.col
  rw [Node.symbol_kind]
  have hiff : ∀ fault, e.Refuses (.toggleSwap cell) fault ↔
      ((e.circuit.node cell).symbol ≠ .swap ∧ n ≠ 1 ∧
        fault = .unswappable (e.circuit.node cell).kind) ∨
      (fault = .occupied cell .swap ∧
        (n = 1 ∨ (e.circuit.node cell).symbol = .swap ∧ (e.circuit.node cell).partner = none ∧
          ∀ row, ¬ (e.circuit.column cell.col).FreeRow cell.row row)) := by
    intro fault
    simp only [refuses_toggleSwap_iff hcol, htidy.toggleSwap_eq_error_iff hrow]
    constructor
    · rintro ⟨cause, ⟨hs, hn, rfl⟩ | ⟨rfl, hwhy⟩, rfl⟩
      · exact .inl ⟨hs, hn, rfl⟩
      · exact .inr ⟨rfl, hwhy⟩
    · rintro (⟨hs, hn, rfl⟩ | ⟨rfl, hwhy⟩)
      · exact ⟨_, .inl ⟨hs, hn, rfl⟩, rfl⟩
      · exact ⟨_, .inr ⟨rfl, hwhy⟩, rfl⟩
  refine ⟨fun hs => (hiff _).2 ?_, hiff⟩
  split_ifs with hn
  · exact .inr ⟨rfl, .inl hn⟩
  · exact .inl ⟨hs, hn, rfl⟩

/-- A column of two wires: an X gate, and under it a swap without a partner. -/
def besideSwap : Editor 2 1 where
  circuit := (Circuit.blank.after (.command (.place ⟨0, 0⟩ (.plain .x) []))).after
    (.command (.place ⟨1, 0⟩ .swap []))
  cursor := ⟨0, 0⟩
  rotationStep := .pi
  status := ""

/-- The X gate is told that it can have no partner, and the swap that its row is taken. -/
theorem toggleSwap_refusals_besideSwap :
    besideSwap.circuit.EditReachable ∧ besideSwap.circuit.contains ⟨0, 0⟩ = true ∧
      besideSwap.circuit.contains ⟨1, 0⟩ = true ∧
      (besideSwap.circuit.node ⟨0, 0⟩).kind.symbol ≠ .swap ∧
      besideSwap.Refuses (.toggleSwap ⟨0, 0⟩) (.unswappable (.plain .x)) ∧
      besideSwap.Refuses (.toggleSwap ⟨1, 0⟩) (.occupied ⟨1, 0⟩ .swap) := by
  have hreach : besideSwap.circuit.EditReachable := by
    dsimp only [besideSwap]
    exact (Circuit.EditReachable.blank.after _ rfl).after _ rfl
  have hgate : besideSwap.circuit.contains ⟨0, 0⟩ = true := rfl
  have hswap : besideSwap.circuit.contains ⟨1, 0⟩ = true := rfl
  have hkind : (besideSwap.circuit.node ⟨0, 0⟩).kind = .plain .x := by decide +kernel
  have hsymbol : (besideSwap.circuit.node ⟨0, 0⟩).kind.symbol ≠ .swap := by
    rw [hkind]
    decide
  have hpartner : (besideSwap.circuit.node ⟨1, 0⟩).kind.symbol = .swap ∧
      (besideSwap.circuit.node ⟨1, 0⟩).partner = none := by decide +kernel
  have hno : ∀ row < 2, ¬ (besideSwap.circuit.column 0).FreeRow 1 row := by decide +kernel
  refine ⟨hreach, hgate, hswap, hsymbol, ?_, ?_⟩
  · have hrefused := (toggleSwap_refusals hreach hgate).1 hsymbol
    rwa [hkind] at hrefused
  · exact ((toggleSwap_refusals hreach hswap).2 _).2
      (.inr ⟨rfl, .inr ⟨hpartner.1, hpartner.2, fun row hfree => hno row hfree.row_lt hfree⟩⟩)

/-- An X gate on a single wire. -/
def loneGate : Editor 1 1 where
  circuit := Circuit.blank.after (.command (.place ⟨0, 0⟩ (.plain .x) []))
  cursor := ⟨0, 0⟩
  rotationStep := .pi
  status := ""

/-- The gate is no swap, and is told that its cell is taken by one. -/
theorem lone_gate_told_occupied :
    loneGate.circuit.EditReachable ∧ loneGate.circuit.contains ⟨0, 0⟩ = true ∧
      (loneGate.circuit.node ⟨0, 0⟩).kind = .plain .x ∧
      loneGate.Refuses (.toggleSwap ⟨0, 0⟩) (.occupied ⟨0, 0⟩ .swap) ∧
      ¬ loneGate.Refuses (.toggleSwap ⟨0, 0⟩) (.unswappable (.plain .x)) := by
  have hreach : loneGate.circuit.EditReachable := by
    dsimp only [loneGate]
    exact Circuit.EditReachable.blank.after _ rfl
  have hkind : (loneGate.circuit.node ⟨0, 0⟩).kind = .plain .x := by decide +kernel
  have hs : ((loneGate.circuit.column 0).node 0).symbol ≠ .swap := by decide +kernel
  have hrefused : loneGate.Refuses (.toggleSwap ⟨0, 0⟩) (.occupied ⟨0, 0⟩ .swap) :=
    (refuses_toggleSwap_iff (by decide)).2
      ⟨_, (hreach.tidy 0).toggleSwap_of_symbol_ne (by decide) hs, rfl⟩
  refine ⟨hreach, rfl, hkind, hrefused, fun h => ?_⟩
  cases hrefused.unique h

end Editor

end QuantumCircuit

import QuantumCircuit.Column.Basic

/-!
# Placing nodes

`Column.place` puts a node into a row and marks its control rows.  It first decides whether the
node fits (`Column.placeFault?`); what it then writes (`Column.overwrite`) cannot fail.  Before a
row is overwritten, the marks that its old node left elsewhere in the column are taken away
(`Column.release`), except the passing wires that another link still needs.
-/

namespace QuantumCircuit

namespace Column

variable {n : Nat}

/-! ### What a placement writes -/

/-- The mark in row `r` is there only for the node in `row`: a control mark on one of its
controls, or a passing wire towards one of its links that neither a link in `keep` from the same
row nor another node's link passes. -/
def isStale (c : Column n) (row : Nat) (keep : List Nat) (r : Nat) : Bool :=
  ((c.node row).controls.contains r && (c.node r).symbol == .control) ||
    ((c.node row).links.any fun link =>
        isBetween row link r && (c.node r).symbol == .trace &&
          !((keep.any fun kept => isBetween row kept r) || c.isSpanned row r))

/-- Takes away the marks that the node in `row` left in its column. -/
def release (c : Column n) (row : Nat) (keep : List Nat) : Column n :=
  ofRows fun r => if c.isStale row keep r then .blank r else c.node r

/-- Stores a node in a row, and control marks in its control rows. -/
def write (c : Column n) (row : Nat) (x : Node) : Column n :=
  ofRows fun r =>
    if x.controls.contains r then .controlMark r
    else if r = row then x.atRow r
    else c.node r

/-- Puts a node into a row, whatever the row and the control rows held before. -/
def overwrite (c : Column n) (row : Nat) (x : Node) : Column n :=
  ((x.controls ++ [row]).foldl
      (fun c r => c.release r (if r = row then x.links else [])) c).write row x

/-- Empties a row. -/
def clear (c : Column n) (row : Nat) : Column n := c.overwrite row (.blank row)

theorem node_release (c : Column n) (row : Nat) (keep : List Nat) {r : Nat} (h : r < n) :
    (c.release row keep).node r = if c.isStale row keep r then .blank r else c.node r :=
  node_ofRows h

theorem node_write (c : Column n) (row : Nat) (x : Node) {r : Nat} (h : r < n) :
    (c.write row x).node r =
      if x.controls.contains r then .controlMark r
      else if r = row then x.atRow r
      else c.node r :=
  node_ofRows h

/-! ### What a placement asks for -/

/-- The first fault among the links of a node: one that leaves the column, or that repeats a row
in `taken`, which grows by the links that were looked at. -/
def linkFault? (c : Column n) (taken : List Nat) : List Nat → Option (EditError Nat)
  | [] => none
  | link :: rest =>
    if n ≤ link then some (.outOfRange link)
    else if taken.contains link then some (c.occupied link)
    else c.linkFault? (link :: taken) rest

/-- Why a node does not fit into a row: the row is outside, a control would not act, a link is
at fault, or a linked row belongs to a node that stays. -/
def placeFault? (c : Column n) (row : Nat) (x : Node) : Option (EditError Nat) :=
  if n ≤ row then some (.outOfRange row)
  else if !x.controlsAct then some (.uncontrollable x.kind)
  else (c.linkFault? [row] x.links).or
    ((x.links.find? (c.isLinked (x.controls ++ [row]))).map c.occupied)

/-- Puts a node into a row if it fits. -/
def place (c : Column n) (row : Nat) (x : Node) : Except (EditError Nat) (Column n) :=
  match c.placeFault? row x with
  | some e => .error e
  | none => .ok (c.overwrite row x)

theorem place_eq_ok_iff {c d : Column n} {row : Nat} {x : Node} :
    c.place row x = .ok d ↔ c.placeFault? row x = none ∧ c.overwrite row x = d := by
  simp only [place]
  split <;> simp_all

/-- A blank cell always fits. -/
theorem place_blank {c : Column n} {row : Nat} (h : row < n) :
    c.place row (.blank row) = .ok (c.clear row) := by
  rw [place_eq_ok_iff]
  refine ⟨?_, rfl⟩
  rw [placeFault?, if_neg (Nat.not_le.2 h)]
  rfl

end Column

end QuantumCircuit

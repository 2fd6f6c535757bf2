/-! # Where two shortest edit paths meet

The edits between two lists are the paths through the grid of their positions: a step
right drops an item of the first list, a step down takes one of the second, and a slide
along a diagonal keeps equal items. Paths are grown from both corners at once, one edit
after the other, each diagonal keeping the farthest point reached on it; the first two
that meet give a point in the middle of a shortest path.
-/

namespace LicenseStamp.Diff

/-- The farthest column reached on each diagonal. -/
structure Frontier where
  /-- The cell of diagonal 0 -/
  origin : Nat
  /-- The columns, diagonal by diagonal -/
  columns : Array Nat

namespace Frontier

/-- The frontier that has reached nothing, for diagonals up to `bound` on either side. -/
def empty (bound : Nat) : Frontier := ⟨bound + 1, Array.replicate (2 * bound + 3) 0⟩

/-- The column reached on a diagonal. -/
def reached (frontier : Frontier) (diagonal : Int) : Nat :=
  frontier.columns.getD (diagonal + frontier.origin).toNat 0

/-- The frontier with another column on a diagonal. -/
def reach (frontier : Frontier) (diagonal : Int) (column : Nat) : Frontier :=
  { frontier with
    columns := frontier.columns.setIfInBounds (diagonal + frontier.origin).toNat column }

/-- The column where a path of `edits` edits enters a diagonal: by a step down from the
    diagonal above or by a step right from the one below, whichever is farther. -/
def entry (frontier : Frontier) (edits : Nat) (diagonal : Int) : Nat :=
  if diagonal = -edits ∨
      (diagonal ≠ edits ∧ frontier.reached (diagonal - 1) < frontier.reached (diagonal + 1)) then
    frontier.reached (diagonal + 1)
  else frontier.reached (diagonal - 1) + 1

end Frontier

/-- How many equal items follow a pair of positions, at most `fuel`. -/
def slide {α : Type} [DecidableEq α] (as bs : Array α) : Nat → Nat → Nat → Nat
  | 0, _, _ => 0
  | fuel + 1, x, y =>
    match as[x]?, bs[y]? with
    | some a, some b => if a = b then slide as bs fuel (x + 1) (y + 1) + 1 else 0
    | _, _ => 0

/-- The two ends of a slide. -/
structure Slide where
  /-- Column where the slide starts -/
  startColumn : Nat
  /-- Row where the slide starts -/
  startRow : Int
  /-- Column where the slide ends -/
  endColumn : Nat
  /-- Row where the slide ends -/
  endRow : Int

/-- The slide of a path of `edits` edits on a diagonal. -/
def slideOn {α : Type} [DecidableEq α] (as bs : Array α) (frontier : Frontier) (edits : Nat)
    (diagonal : Int) : Slide :=
  let column := frontier.entry edits diagonal
  let row := (column : Int) - diagonal
  let length := if row < 0 then 0 else slide as bs as.size column row.toNat
  ⟨column, row, column + length, row + length⟩

/-- Grows a frontier by one edit on the given diagonals, until a slide meets the other
    frontier. -/
def grow {α : Type} [DecidableEq α] (as bs : Array α) (edits : Nat) (meets : Int → Nat → Bool) :
    Frontier → List Int → Except Slide Frontier
  | frontier, [] => .ok frontier
  | frontier, diagonal :: rest =>
    let slide := slideOn as bs frontier edits diagonal
    if meets diagonal slide.endColumn then .error slide
    else grow as bs edits meets (frontier.reach diagonal slide.endColumn) rest

/-- The diagonals that paths of `edits` edits can end on, from the highest down. -/
def diagonals (edits : Nat) : List Int :=
  (List.range (edits + 1)).map fun (i : Nat) => (edits : Int) - 2 * i

/-- The meeting point of the frontiers for the given numbers of edits, which grow one by
    one. The paths from the far corner are those of the two lists in reverse. -/
def meetingPoint? {α : Type} [DecidableEq α] (as bs : Array α) :
    Frontier → Frontier → List Nat → Option (Nat × Nat)
  | _, _, [] => none
  | forward, backward, edits :: more =>
    let delta : Int := as.size - bs.size
    let meetsBackward (diagonal : Int) (column : Nat) : Bool :=
      delta % 2 != 0 && (diagonal - delta).natAbs + 1 ≤ edits
        && as.size ≤ column + backward.reached (delta - diagonal)
    match grow as bs edits meetsBackward forward (diagonals edits) with
    | .error slide => some (slide.startColumn, slide.startRow.toNat)
    | .ok forward =>
      let meetsForward (diagonal : Int) (column : Nat) : Bool :=
        delta % 2 == 0 && (diagonal - delta).natAbs ≤ edits
          && as.size ≤ column + forward.reached (delta - diagonal)
      match grow as.reverse bs.reverse edits meetsForward backward (diagonals edits) with
      | .error slide => some (as.size - slide.endColumn, (bs.size - slide.endRow).toNat)
      | .ok backward => meetingPoint? as bs forward backward more

/-- A point in the middle of a shortest edit path between two lists. -/
def middle? {α : Type} [DecidableEq α] (as bs : List α) : Option (Nat × Nat) :=
  let bound := (as.length + bs.length + 1) / 2 + 1
  meetingPoint? as.toArray bs.toArray (.empty bound) (.empty bound) (List.range bound)

end LicenseStamp.Diff

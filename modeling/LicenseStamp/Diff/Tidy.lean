import LicenseStamp.Diff.Ends
import LicenseStamp.Diff.Script

/-! # Tidy edit scripts

An alignment may scatter the changes of one side. Tidying moves each change as far up
as it goes, joining it with the changes of its side on the way, and then as far down as
it goes. Removed items are placed first, added ones after them. Neither side of the
script changes.
-/

namespace LicenseStamp.Diff

variable {α : Type} [DecidableEq α]

/-- A change of one side together with the stretches around it. -/
structure Focus (α : Type) where
  /-- The stretches before the change, nearest first -/
  before : Script α
  /-- The items of the change -/
  items : List α
  /-- The stretches after the change -/
  after : Script α

/-- The items of a change that could be read as part of a kept stretch: kept stretches
    are items of the new side, so only added items can. -/
def movable (side : Side) (items : List α) : List α := (Edit.only side items).view .new

/-- A script that starts with more kept items. -/
def keepMore (items : List α) : Script α → Script α
  | .keep next :: rest => .keep (items ++ next) :: rest
  | script => .keep items :: script

/-- A script, nearest stretch first, that ends with more kept items. -/
def keepMoreBefore (items : List α) : Script α → Script α
  | .keep last :: rest => .keep (last ++ items) :: rest
  | script => .keep items :: script

/-- The size of a script: its stretches and their items. -/
def Script.weight : Script α → Nat
  | [] => 0
  | .keep items :: rest => items.length + 1 + Script.weight rest
  | .only _ items :: rest => items.length + 1 + Script.weight rest

/-- Moves a change up: past changes of the other side, into changes of its own side, and
    past the items of a kept stretch that also end the change. -/
def moveUp (side : Side) : Script α → List α → Script α → Focus α
  | [], items, after => ⟨[], items, after⟩
  | .only owner others :: before, items, after =>
    if owner = side then moveUp side before (others ++ items) after
    else moveUp side before items (.only owner others :: after)
  | .keep kept :: before, items, after =>
    let (rest, _, shared) := splitEnd kept (movable side items)
    if rest.length < kept.length then
      let moved := shared ++ items.take (items.length - shared.length)
      if rest.isEmpty then moveUp side before moved (keepMore shared after)
      else moveUp side (.keep rest :: before) moved (keepMore shared after)
    else if kept.isEmpty then moveUp side before items after
    else ⟨.keep kept :: before, items, after⟩
termination_by before => Script.weight before
decreasing_by
  all_goals simp only [Script.weight]
  all_goals omega

/-- Moves a change down: past changes of the other side, joining changes of its own side,
    and past the items of a kept stretch that also start the change. -/
def moveDown (side : Side) : Script α → List α → Script α → Focus α
  | before, items, [] => ⟨before, items, []⟩
  | before, items, .only owner others :: after =>
    if owner = side then moveDown side before (items ++ others) after
    else moveDown side (.only owner others :: before) items after
  | before, items, .keep kept :: after =>
    let (shared, rest, _) := splitStart kept (movable side items)
    if rest.length < kept.length then
      let moved := items.drop shared.length ++ shared
      if rest.isEmpty then moveDown side (keepMoreBefore shared before) moved after
      else moveDown side (keepMoreBefore shared before) moved (.keep rest :: after)
    else if kept.isEmpty then moveDown side before items after
    else ⟨before, items, .keep kept :: after⟩
termination_by _ _ after => Script.weight after
decreasing_by
  all_goals simp only [Script.weight]
  all_goals omega

/-- Whether a stretch is a change of one side. -/
def Edit.isOnly (side : Side) : Edit α → Bool
  | .keep _ => false
  | .only owner _ => owner = side

/-- Places the next `count` changes of one side, after the stretches `before`, which are
    given nearest first. -/
def placeChanges (side : Side) : Nat → Script α → Script α → Script α
  | 0, before, after => before.reverse ++ after
  | count + 1, before, after =>
    let passed := after.takeWhile fun edit => !edit.isOnly side
    match after.dropWhile fun edit => !edit.isOnly side with
    | .only _ items :: rest =>
      let up := moveUp side (passed.reverse ++ before) items rest
      let down := moveDown side up.before up.items up.after
      placeChanges side count (.only side down.items :: down.before) down.after
    | _ => before.reverse ++ after

/-- A script with the changes of one side placed. -/
def Script.tidySide (side : Side) (script : Script α) : Script α :=
  placeChanges side (script.countP (Edit.isOnly side)) [] script

/-- A script with the changes of both sides placed. -/
def Script.tidy (script : Script α) : Script α :=
  Script.tidySide .new (Script.tidySide .old script)

end LicenseStamp.Diff

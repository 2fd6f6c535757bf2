/-! # Edit scripts

An edit script tells how one list becomes another: stretches that both have, and
stretches that only one side has. Each side can be read off the script.
-/

namespace LicenseStamp.Diff

/-- One of the two lists that are compared. -/
inductive Side where
  /-- The list before the change. -/
  | old
  /-- The list after the change. -/
  | new
  deriving Repr, DecidableEq

/-- One stretch of an edit script. -/
inductive Edit (α : Type) where
  /-- Items of both sides. -/
  | keep (items : List α)
  /-- Items that one side has and the other lacks. -/
  | only (side : Side) (items : List α)
  deriving Repr, DecidableEq

/-- The stretches of an edit script from the front. -/
abbrev Script (α : Type) := List (Edit α)

variable {α : Type}

/-- The items of a stretch on one side. -/
def Edit.view (side : Side) : Edit α → List α
  | .keep items => items
  | .only owner items => if owner = side then items else []

/-- The list on one side of a script. -/
def Script.view (side : Side) (script : Script α) : List α := script.flatMap (Edit.view side)

@[simp]
theorem Edit.view_keep (side : Side) (items : List α) : (Edit.keep items).view side = items := rfl

@[simp]
theorem Edit.view_only_self (side : Side) (items : List α) :
    (Edit.only side items).view side = items := if_pos rfl

@[simp]
theorem Script.view_nil (side : Side) : Script.view side ([] : Script α) = [] := rfl

@[simp]
theorem Script.view_cons (side : Side) (edit : Edit α) (script : Script α) :
    Script.view side (edit :: script) = edit.view side ++ Script.view side script := by
  simp [Script.view]

@[simp]
theorem Script.view_append (side : Side) (first second : Script α) :
    Script.view side (first ++ second) = Script.view side first ++ Script.view side second := by
  simp [Script.view]

/-- What happened to one item. -/
inductive Mark where
  /-- Both sides have it. -/
  | kept
  /-- Only the old side has it. -/
  | removed
  /-- Only the new side has it. -/
  | added
  deriving Repr, DecidableEq

/-- The items of a script with their marks. Between two kept stretches the removed items
    come before the added ones; `gone` and `come` are those met since the last one. -/
def Script.changesAfter (gone come : List α) : Script α → List (Mark × α)
  | [] => gone.map (.removed, ·) ++ come.map (.added, ·)
  | .keep items :: rest =>
    gone.map (.removed, ·) ++ come.map (.added, ·) ++ items.map (.kept, ·)
      ++ Script.changesAfter [] [] rest
  | .only .old items :: rest => Script.changesAfter (gone ++ items) come rest
  | .only .new items :: rest => Script.changesAfter gone (come ++ items) rest

/-- The items of a script with their marks, in the order they are shown. -/
def Script.changes (script : Script α) : List (Mark × α) := Script.changesAfter [] [] script

end LicenseStamp.Diff

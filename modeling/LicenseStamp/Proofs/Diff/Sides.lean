import LicenseStamp.Diff.Align
import LicenseStamp.Diff.Tidy
import Mathlib.Data.List.Infix

/-! # Both sides of an edit script

An alignment is a script between its two lists: each list is one side of it, item for item and in
order. Tidying moves changes about, but leaves both sides of a script as they are.
-/

namespace LicenseStamp.Diff

variable {α : Type} {side owner : Side} {items others : List α} {first second : Script α}

theorem Edit.view_only (side owner : Side) (items : List α) :
    (Edit.only owner items).view side = if owner = side then items else [] := rfl

@[simp]
theorem Edit.view_only_append (side owner : Side) (items others : List α) :
    (Edit.only owner (items ++ others)).view side =
      (Edit.only owner items).view side ++ (Edit.only owner others).view side := by
  rw [view_only, view_only, view_only]
  split <;> rfl

/-- Changes of different sides may change places. -/
theorem Script.view_swap (hne : owner ≠ side) (viewer : Side) (items others : List α)
    (rest : Script α) :
    Script.view viewer (.only owner others :: .only side items :: rest) =
      Script.view viewer (.only side items :: .only owner others :: rest) := by
  simp only [view_cons, Edit.view_only]
  by_cases howner : owner = viewer
  · have hside : side ≠ viewer := fun same => hne (howner.trans same.symm)
    rw [if_neg hside, List.nil_append, List.nil_append]
  · rw [if_neg howner, List.nil_append, List.nil_append]

/-- A script from one list to another: the lists are its sides. -/
structure Script.Between (script : Script α) (old new : List α) : Prop where
  old : script.view .old = old
  new : script.view .new = new

namespace Script.Between

variable {olds news olds' news' : List α}

theorem nil : Between ([] : Script α) [] [] := ⟨rfl, rfl⟩

theorem append (h : Between first olds news) (h' : Between second olds' news') :
    Between (first ++ second) (olds ++ olds') (news ++ news') :=
  ⟨by rw [view_append, h.old, h'.old], by rw [view_append, h.new, h'.new]⟩

theorem only_old (items : List α) : Between [.only .old items] items [] := by
  constructor <;> simp [Edit.view_only]

theorem only_new (items : List α) : Between [.only .new items] [] items := by
  constructor <;> simp [Edit.view_only]

end Script.Between

theorem between_keepIfAny (items : List α) : (keepIfAny items).Between items items := by
  unfold keepIfAny
  cases items <;> constructor <;> simp

/-! ## Changes that move -/

@[simp]
theorem view_keepMore (side : Side) (items : List α) (script : Script α) :
    Script.view side (keepMore items script) = items ++ Script.view side script := by
  unfold keepMore
  split <;> simp

@[simp]
theorem view_reverse_keepMoreBefore (side : Side) (items : List α) (script : Script α) :
    Script.view side (keepMoreBefore items script).reverse =
      Script.view side script.reverse ++ items := by
  unfold keepMoreBefore
  split <;> simp

/-- The script that a change of one side makes with what stands around it. -/
def Focus.script (side : Side) (focus : Focus α) : Script α :=
  focus.before.reverse ++ .only side focus.items :: focus.after

/-- Only items of the new side can move. -/
theorem movable_eq (h : movable side items ≠ []) : side = .new ∧ movable side items = items := by
  cases side with
  | new => exact ⟨rfl, Edit.view_only_self _ _⟩
  | old => exact absurd rfl h

/-- A change that moves up over kept items it ends with leaves them below it, and both sides
    stay. -/
theorem view_shift_up (viewer : Side) (rest front shared : List α) (before after : Script α) :
    Script.view viewer (before.reverse ++ .keep rest :: .only .new (shared ++ front) ::
        keepMore shared after) =
      Script.view viewer (before.reverse ++ .keep (rest ++ shared) ::
        .only .new (front ++ shared) :: after) := by
  cases viewer <;> simp [Edit.view_only]

/-- A change that moves down over kept items it starts with leaves them above it, and both sides
    stay. -/
theorem view_shift_down (viewer : Side) (rest back shared : List α) (before after : Script α) :
    Script.view viewer ((keepMoreBefore shared before).reverse ++
        .only .new (back ++ shared) :: .keep rest :: after) =
      Script.view viewer (before.reverse ++ .only .new (shared ++ back) ::
        .keep (shared ++ rest) :: after) := by
  cases viewer <;> simp [Edit.view_only]

/-- The first change of a side among some stretches belongs to it. -/
theorem eq_of_dropWhile {after rest : Script α}
    (h : after.dropWhile (fun edit => !edit.isOnly side) = .only owner items :: rest) :
    owner = side := by
  have hfirst := List.head?_dropWhile_not (fun edit : Edit α => !edit.isOnly side) after
  rw [h] at hfirst
  simpa [Edit.isOnly] using hfirst

variable [DecidableEq α]

/-! ## Alignment -/

/-- An alignment leads from its first list to its second one. -/
theorem between_align (old new : List α) : (align old new).Between old new := by
  fun_induction align old new with
  | case1 old new start ends olds news between ihtop ihbottom =>
      obtain ⟨hold, hnew⟩ := splitStart_eq old new
      obtain ⟨holds, hnews⟩ := splitEnd_eq start.2.1 start.2.2
      have hbetween : between.Between olds news := by
        simp only [between]
        split
        next hnone =>
          rw [List.isEmpty_iff.1 hnone]
          split
          next hnothing => rw [List.isEmpty_iff.1 hnothing]; exact .nil
          · exact .only_old olds
        · split
          next hnothing => rw [List.isEmpty_iff.1 hnothing]; exact .only_new news
          · split
            next hcut =>
              -- the two halves together are the lists that were cut
              have hhalves := (ihtop _ _ hcut).append (ihbottom _ _ hcut)
              rwa [List.take_append_drop, List.take_append_drop] at hhalves
            · have hboth := (Script.Between.only_old olds).append (.only_new news)
              rwa [List.append_nil, List.nil_append] at hboth
      have hall := ((between_keepIfAny start.1).append hbetween).append (between_keepIfAny ends.2.2)
      have holds : start.1 ++ olds ++ ends.2.2 = old := by rw [List.append_assoc, holds, hold]
      have hnews : start.1 ++ news ++ ends.2.2 = new := by rw [List.append_assoc, hnews, hnew]
      rwa [holds, hnews] at hall

theorem splitStart_self (items : List α) : splitStart items items = (items, [], []) := by
  induction items with
  | nil => rfl
  | cons item rest ih => rw [splitStart, if_pos rfl, ih]

/-- A list is aligned with itself by keeping it. -/
theorem align_self (items : List α) : align items items = keepIfAny items := by
  have hends : splitEnd ([] : List α) [] = ([], [], []) := rfl
  rw [align, splitStart_self]
  simp only [hends, List.isEmpty_nil, if_true, List.append_nil]
  exact List.append_nil _

/-! ## Tidying -/

/-- What an added change shares with the end of the kept items before it. -/
theorem of_splitEnd {kept rest front shared : List α}
    (h : splitEnd kept (movable side items) = (rest, front, shared))
    (hshared : rest.length < kept.length) :
    side = .new ∧ kept = rest ++ shared ∧ items = front ++ shared := by
  obtain ⟨hkept, hitems⟩ := splitEnd_eq kept (movable side items)
  rw [h] at hkept hitems
  have hne : shared ≠ [] := by
    rintro rfl
    simp [← hkept] at hshared
  obtain ⟨hside, hmovable⟩ := movable_eq (hitems ▸ List.append_ne_nil_of_right_ne_nil front hne)
  exact ⟨hside, hkept.symm, hmovable.symm.trans hitems.symm⟩

/-- What an added change shares with the start of the kept items after it. -/
theorem of_splitStart {kept rest back shared : List α}
    (h : splitStart kept (movable side items) = (shared, rest, back))
    (hshared : rest.length < kept.length) :
    side = .new ∧ kept = shared ++ rest ∧ items = shared ++ back := by
  obtain ⟨hkept, hitems⟩ := splitStart_eq kept (movable side items)
  rw [h] at hkept hitems
  have hne : shared ≠ [] := by
    rintro rfl
    simp [← hkept] at hshared
  obtain ⟨hside, hmovable⟩ := movable_eq (hitems ▸ List.append_ne_nil_of_left_ne_nil hne back)
  exact ⟨hside, hkept.symm, hmovable.symm.trans hitems.symm⟩

/-- Moving a change up leaves both sides of the script. -/
theorem view_moveUp (viewer side : Side) (before : Script α) (items : List α) (after : Script α) :
    Script.view viewer ((moveUp side before items after).script side) =
      Script.view viewer (before.reverse ++ .only side items :: after) := by
  fun_induction moveUp side before items after with
  | case1 items after => rfl
  | case2 others before items after ih =>
      rw [ih]
      simp
  | case3 owner others before items after howner ih =>
      rw [ih, Script.view_append, ← Script.view_swap howner, ← Script.view_append]
      simp
  | case4 kept before items after rest front shared hsplit hshared moved hrest ih =>
      obtain ⟨rfl, rfl, rfl⟩ := of_splitEnd hsplit hshared
      have hmoved : moved = shared ++ front := by simp [moved]
      rw [ih, hmoved, List.reverse_cons, List.append_assoc, List.singleton_append, ← view_shift_up,
        List.isEmpty_iff.1 hrest]
      simp
  | case5 kept before items after rest front shared hsplit hshared moved hrest ih =>
      obtain ⟨rfl, rfl, rfl⟩ := of_splitEnd hsplit hshared
      have hmoved : moved = shared ++ front := by simp [moved]
      rw [ih, hmoved, List.reverse_cons, List.append_assoc, List.singleton_append, view_shift_up,
        List.reverse_cons, List.append_assoc, List.singleton_append]
  | case6 kept before items after rest front shared hsplit hshared hkept ih =>
      rw [ih]
      simp [List.isEmpty_iff.1 hkept]
  | case7 kept before items after => simp [Focus.script]

/-- Moving a change down leaves both sides of the script. -/
theorem view_moveDown (viewer side : Side) (before : Script α) (items : List α)
    (after : Script α) :
    Script.view viewer ((moveDown side before items after).script side) =
      Script.view viewer (before.reverse ++ .only side items :: after) := by
  fun_induction moveDown side before items after with
  | case1 before items => rfl
  | case2 before items others after ih =>
      rw [ih]
      simp
  | case3 before items owner others after howner ih =>
      rw [ih, List.reverse_cons, List.append_assoc, List.singleton_append, Script.view_append,
        Script.view_swap howner, ← Script.view_append]
  | case4 before items kept after shared rest back hsplit hshared moved hrest ih =>
      obtain ⟨rfl, rfl, rfl⟩ := of_splitStart hsplit hshared
      have hmoved : moved = back ++ shared := by simp [moved]
      rw [ih, hmoved, ← view_shift_down, List.isEmpty_iff.1 hrest]
      simp
  | case5 before items kept after shared rest back hsplit hshared moved hrest ih =>
      obtain ⟨rfl, rfl, rfl⟩ := of_splitStart hsplit hshared
      have hmoved : moved = back ++ shared := by simp [moved]
      rw [ih, hmoved, view_shift_down]
  | case6 before items kept after shared rest back hsplit hshared hkept ih =>
      rw [ih]
      simp [List.isEmpty_iff.1 hkept]
  | case7 before items kept after => rfl

theorem view_placeChanges (viewer side : Side) (count : Nat) (before after : Script α) :
    Script.view viewer (placeChanges side count before after) =
      Script.view viewer (before.reverse ++ after) := by
  fun_induction placeChanges side count before after with
  | case1 before after => rfl
  | case2 count before after passed owner items rest hrest up down ih =>
      obtain rfl := eq_of_dropWhile hrest
      have hafter : passed ++ .only owner items :: rest = after := by
        rw [← hrest]
        exact List.takeWhile_append_dropWhile
      calc Script.view viewer (placeChanges owner count (.only owner down.items :: down.before) down.after)
          = Script.view viewer (down.script owner) := by
            rw [ih, Focus.script, List.reverse_cons, List.append_assoc, List.singleton_append]
        _ = Script.view viewer (up.script owner) := view_moveDown viewer owner _ _ _
        _ = Script.view viewer (before.reverse ++ (passed ++ .only owner items :: rest)) := by
            rw [view_moveUp, List.reverse_append, List.reverse_reverse, List.append_assoc]
        _ = Script.view viewer (before.reverse ++ after) := by rw [hafter]
  | case3 => rfl

/-- Tidying leaves both sides of a script. -/
theorem view_tidy (viewer : Side) (script : Script α) :
    Script.view viewer script.tidy = Script.view viewer script := by
  rw [Script.tidy, Script.tidySide, view_placeChanges, Script.tidySide, List.reverse_nil,
    List.nil_append, view_placeChanges, List.reverse_nil, List.nil_append]

/-- A script without changes is tidy. -/
theorem tidy_of_keeps {script : Script α} (h : ∀ edit ∈ script, ∀ side, Edit.isOnly side edit = false) :
    script.tidy = script := by
  have hcount : ∀ side, script.countP (Edit.isOnly side) = 0 := by
    intro side
    rw [List.countP_eq_zero]
    intro edit hedit
    rw [h edit hedit side]
    exact Bool.false_ne_true
  have hside : ∀ side, script.tidySide side = script := by
    intro side
    rw [Script.tidySide, hcount]
    rfl
  rw [Script.tidy, hside, hside]

end LicenseStamp.Diff

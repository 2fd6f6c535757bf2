import LicenseStamp.Proofs.Diff.Shown
import LicenseStamp.Proofs.Header.Composed

/-! # Insertions are shown as insertions

A list that ends in another one is aligned with it by keeping all of the other: what both start with
is kept above the insertion, and the rest is their common end. Tidying takes nothing away. So a
header that is put above a text is shown by added lines only, whatever the text starts with.
-/

namespace LicenseStamp

namespace Diff

variable {α : Type} {side owner : Side} {items : List α} {before after script : Script α}
  {edit : Edit α}

/-! ## Scripts without changes of one side -/

/-- A script in which no stretch belongs to one side alone. -/
def Script.Lacks (side : Side) (script : Script α) : Prop :=
  ∀ edit ∈ script, Edit.isOnly side edit = false

namespace Script

@[simp]
theorem lacks_nil (side : Side) : Lacks side ([] : Script α) := List.forall_mem_nil _

@[simp]
theorem lacks_cons : Lacks side (edit :: script) ↔ edit.isOnly side = false ∧ Lacks side script :=
  List.forall_mem_cons

@[simp]
theorem lacks_append : Lacks side (before ++ after) ↔ Lacks side before ∧ Lacks side after :=
  List.forall_mem_append

@[simp]
theorem lacks_reverse : Lacks side script.reverse ↔ Lacks side script := by
  simp only [Lacks, List.mem_reverse]

end Script

@[simp]
theorem Edit.isOnly_keep (side : Side) (items : List α) : (Edit.keep items).isOnly side = false := rfl

theorem Edit.isOnly_only (side owner : Side) (items : List α) :
    (Edit.only owner items).isOnly side = decide (owner = side) := rfl

@[simp]
theorem lacks_keepMore : (keepMore items script).Lacks side ↔ script.Lacks side := by
  unfold keepMore
  split <;> simp

@[simp]
theorem lacks_keepMoreBefore : (keepMoreBefore items script).Lacks side ↔ script.Lacks side := by
  unfold keepMoreBefore
  split <;> simp

theorem lacks_keepIfAny (items : List α) : (keepIfAny items).Lacks side := by
  unfold keepIfAny
  split <;> simp

variable [DecidableEq α]

/-- A change that moves up passes changes and kept items, but makes no new change. -/
theorem lacks_moveUp (hbefore : before.Lacks owner) (hafter : after.Lacks owner) :
    (moveUp side before items after).before.Lacks owner ∧
      (moveUp side before items after).after.Lacks owner := by
  fun_induction moveUp side before items after with
  | case1 items after => exact ⟨hbefore, hafter⟩
  | case2 others before items after ih => exact ih (Script.lacks_cons.1 hbefore).2 hafter
  | case3 other others before items after hother ih =>
      obtain ⟨hfirst, hrest⟩ := Script.lacks_cons.1 hbefore
      exact ih hrest (Script.lacks_cons.2 ⟨hfirst, hafter⟩)
  | case4 kept before items after rest front shared hsplit hshared moved hrest ih =>
      exact ih (Script.lacks_cons.1 hbefore).2 (lacks_keepMore.2 hafter)
  | case5 kept before items after rest front shared hsplit hshared moved hrest ih =>
      exact ih (Script.lacks_cons.2 ⟨rfl, (Script.lacks_cons.1 hbefore).2⟩)
        (lacks_keepMore.2 hafter)
  | case6 kept before items after rest front shared hsplit hshared hkept ih =>
      exact ih (Script.lacks_cons.1 hbefore).2 hafter
  | case7 kept before items after => exact ⟨hbefore, hafter⟩

/-- Nor does a change that moves down. -/
theorem lacks_moveDown (hbefore : before.Lacks owner) (hafter : after.Lacks owner) :
    (moveDown side before items after).before.Lacks owner ∧
      (moveDown side before items after).after.Lacks owner := by
  fun_induction moveDown side before items after with
  | case1 before items => exact ⟨hbefore, hafter⟩
  | case2 before items others after ih => exact ih hbefore (Script.lacks_cons.1 hafter).2
  | case3 before items other others after hother ih =>
      obtain ⟨hfirst, hrest⟩ := Script.lacks_cons.1 hafter
      exact ih (Script.lacks_cons.2 ⟨hfirst, hbefore⟩) hrest
  | case4 before items kept after shared rest back hsplit hshared moved hrest ih =>
      exact ih (lacks_keepMoreBefore.2 hbefore) (Script.lacks_cons.1 hafter).2
  | case5 before items kept after shared rest back hsplit hshared moved hrest ih =>
      exact ih (lacks_keepMoreBefore.2 hbefore)
        (Script.lacks_cons.2 ⟨rfl, (Script.lacks_cons.1 hafter).2⟩)
  | case6 before items kept after shared rest back hsplit hshared hkept ih =>
      exact ih hbefore (Script.lacks_cons.1 hafter).2
  | case7 before items kept after => exact ⟨hbefore, hafter⟩

theorem lacks_placeChanges {count : Nat} (hbefore : before.Lacks owner)
    (hafter : after.Lacks owner) : (placeChanges side count before after).Lacks owner := by
  fun_induction placeChanges side count before after with
  | case1 before after => simp [hbefore, hafter]
  | case2 count before after passed other items rest hrest up down ih =>
      obtain rfl := eq_of_dropWhile hrest
      have hall : Script.Lacks owner (passed ++ .only other items :: rest) := by
        rw [← hrest, List.takeWhile_append_dropWhile]
        exact hafter
      obtain ⟨hpassed, hrest⟩ := Script.lacks_append.1 hall
      obtain ⟨hchange, hrest⟩ := Script.lacks_cons.1 hrest
      have hfront := Script.lacks_append.2 ⟨Script.lacks_reverse.2 hpassed, hbefore⟩
      have hup : up.before.Lacks owner ∧ up.after.Lacks owner := lacks_moveUp hfront hrest
      have hdown : down.before.Lacks owner ∧ down.after.Lacks owner := lacks_moveDown hup.1 hup.2
      exact ih (Script.lacks_cons.2 ⟨hchange, hdown.1⟩) hdown.2
  | case3 => simp [hbefore, hafter]

/-- Tidying makes no change of a side that had none. -/
theorem Script.Lacks.tidy (h : script.Lacks owner) : script.tidy.Lacks owner :=
  lacks_placeChanges (lacks_nil owner) (lacks_placeChanges (lacks_nil owner) h)

/-! ## Lists that end in another list -/

variable {old new : List α}

theorem splitStart_append (first rest : List α) :
    splitStart first (first ++ rest) = (first, [], rest) := by
  induction first with
  | nil => cases rest <;> rfl
  | cons item more ih => rw [List.cons_append, splitStart, if_pos rfl, ih]

theorem splitEnd_append (front last : List α) : splitEnd last (front ++ last) = ([], front, last) := by
  rw [splitEnd, List.reverse_append, splitStart_append]
  simp

/-- Without their common start, one list still ends in the other. -/
theorem suffix_of_splitStart (h : old <:+ new) :
    (splitStart old new).2.1 <:+ (splitStart old new).2.2 := by
  obtain ⟨hold, hnew⟩ := splitStart_eq old new
  have hfirst : (splitStart old new).2.1 <:+ new := (List.suffix_append _ _).trans (hold ▸ h)
  have hsecond : (splitStart old new).2.2 <:+ new := ⟨_, hnew⟩
  refine List.suffix_of_suffix_length_le hfirst hsecond ?_
  have hlength := h.length_le
  rw [← hold] at hlength
  conv at hlength => rhs; rw [← hnew]
  simp only [List.length_append] at hlength
  omega

/-- A list that ends in another one is aligned with it by additions alone. -/
theorem lacks_align (h : old <:+ new) : (align old new).Lacks .old := by
  obtain ⟨front, hfront⟩ := suffix_of_splitStart h
  rw [align, ← hfront, splitEnd_append]
  simp only [List.isEmpty_nil, if_true, Script.lacks_append, lacks_keepIfAny, true_and, and_true]
  split
  · exact Script.lacks_nil .old
  · exact Script.lacks_cons.2 ⟨rfl, Script.lacks_nil .old⟩

/-! ## Marks of an insertion -/

omit [DecidableEq α] in
theorem mark_ne_removed (h : script.Lacks .old) (come : List α) :
    ∀ change ∈ Script.changesAfter [] come script, change.1 ≠ .removed := by
  induction script generalizing come with
  | nil => simp [Script.changesAfter]
  | cons edit rest ih =>
      obtain ⟨hfirst, hrest⟩ := Script.lacks_cons.1 h
      cases edit with
      | keep items =>
          intro change hchange
          rw [Script.changesAfter, List.mem_append] at hchange
          rcases hchange with hshown | hlater
          · rintro hmark
            simp only [List.map_nil, List.nil_append, List.mem_append, List.mem_map] at hshown
            rcases hshown with ⟨_, -, rfl⟩ | ⟨_, -, rfl⟩ <;> cases hmark
          · exact ih hrest [] change hlater
      | only owner items =>
          cases owner with
          | old => cases hfirst
          | new => exact ih hrest (come ++ items)

omit [DecidableEq α] in
/-- Without removed items, all items are on the new side, and those that are not added are on the
    old one. -/
theorem countP_added_add_length {changes : List (Mark × α)}
    (h : ∀ change ∈ changes, change.1 ≠ .removed) :
    changes.countP (fun change => change.1 = .added) + (viewOf .old changes).length =
      (viewOf .new changes).length := by
  induction changes with
  | nil => rfl
  | cons change rest ih =>
      obtain ⟨hfirst, hrest⟩ := List.forall_mem_cons.1 h
      have ih := ih hrest
      obtain ⟨mark, item⟩ := change
      cases mark with
      | removed => exact absurd rfl hfirst
      | kept =>
          rw [List.countP_cons_of_neg (by simp)]
          exact congrArg (· + 1) ih
      | added =>
          rw [List.countP_cons_of_pos (by simp), Nat.add_right_comm]
          exact congrArg (· + 1) ih

/-! ## Lines of an insertion -/

variable {line text rest oldText newText : Text} {ls : List Text}

theorem endedLines_append_feed_cons (h : Text.IsLine line) (rest : Text) :
    endedLines (line ++ '\n' :: rest) = (line ++ ['\n']) :: endedLines rest := by
  induction line with
  | nil => rfl
  | cons c line ih =>
      rw [List.cons_append, endedLines_cons_of_ne h.head_ne.1 h.head_ne.2, ih h.tail]
      rfl

theorem endedLines_ended_append (hlines : ∀ line ∈ ls, Text.IsLine line) (rest : Text) :
    endedLines (Text.ended ls ++ rest) = ls.map (· ++ ['\n']) ++ endedLines rest := by
  induction ls with
  | nil => rfl
  | cons line more ih =>
      obtain ⟨hline, hmore⟩ := List.forall_mem_cons.1 hlines
      rw [Text.ended_cons, List.append_assoc, List.cons_append, endedLines_append_feed_cons hline,
        ih hmore]
      rfl

theorem countP_shownLine (changes : List (Mark × Text)) :
    (changes.map shownLine).countP (fun line => line.head? = some '+') =
      changes.countP fun change => change.1 = .added := by
  rw [List.countP_map]
  refine List.countP_congr fun change _ => ?_
  obtain ⟨mark, item⟩ := change
  cases mark <;> simp [shownLine, Mark.sign]

/-- If a text ends in the lines of another one, the diff shows these lines behind blanks, all of
    them and in order, and every other line behind a plus. -/
theorem render_insertion (path : Path) (hold : '\r' ∉ oldText) (hnew : '\r' ∉ newText)
    (hsuffix : endedLines oldText <:+ endedLines newText) :
    ∃ shown : List Text, render path oldText newText = heading path ++ Text.ended shown ∧
      (Text.ended shown).splitOn '\n' = shown ++ [[]] ∧
      (∀ line ∈ shown, line.head? = some '+' ∨ line.head? = some ' ') ∧
      (shown.filter fun line => line.head? = some ' ').map List.tail = Text.lines oldText ∧
      shown.countP (fun line => line.head? = some '+') + (endedLines oldText).length =
        (endedLines newText).length := by
  let changes := (ofTexts oldText newText).changes
  have hmarks : ∀ change ∈ changes, change.1 ≠ .removed :=
    mark_ne_removed (lacks_align hsuffix).tidy []
  obtain ⟨hrender, hsplit⟩ := render_eq_ended path hold hnew
  refine ⟨changes.map shownLine, hrender, hsplit, ?_, ?_, ?_⟩
  · intro line hline
    obtain ⟨⟨mark, item⟩, hchange, rfl⟩ := List.mem_map.1 hline
    cases mark with
    | kept => exact .inr rfl
    | added => exact .inl rfl
    | removed => exact absurd rfl (hmarks _ hchange)
  · -- no line stands behind a minus, so a blank marks all lines of the old side
    have hblank : (changes.map shownLine).filter (fun line => line.head? = some ' ') =
        (changes.map shownLine).filter fun line => line.head? = some '-' ∨ line.head? = some ' ' := by
      refine List.filter_congr fun line hline => ?_
      obtain ⟨⟨mark, item⟩, hchange, rfl⟩ := List.mem_map.1 hline
      cases mark with
      | kept | added => rfl
      | removed => exact absurd rfl (hmarks _ hchange)
    rw [hblank, map_tail_filter_shownLine .old (by rintro (_ | _ | _) line <;> rfl),
      viewOf_old_ofTexts, dropLast_closeLine_endedLines hold]
  · have htotal := countP_added_add_length hmarks
    rwa [viewOf_old_ofTexts, viewOf_new_ofTexts, ← countP_shownLine] at htotal

end Diff

/-! ## Headers put above a text -/

namespace HeaderStyle

variable {text : Text}

/-- A header that is put above a text shows as an insertion: all lines of the text stand behind
    blanks, in order, and as many lines behind a plus as the header has, and one more. -/
theorem render_stamp_inserts (style : HeaderStyle) (path : Path) (hreturn : '\r' ∉ text)
    (hend : ∃ front c, text = front ++ [c, '\n'] ∧ Text.isBlank c = false)
    (hunsigned : ∀ line ∈ (Text.lines text).take 40, ¬ Obsolete.Signed line) :
    ∃ shown : List Text,
      Diff.render path text (style.stamp text).content =
        Diff.heading path ++ Text.ended shown ∧
      (Text.ended shown).splitOn '\n' = shown ++ [[]] ∧
      (∀ line ∈ shown, line.head? = some '+' ∨ line.head? = some ' ') ∧
      (shown.filter fun line => line.head? = some ' ').map List.tail = Text.lines text ∧
      shown.countP (fun line => line.head? = some '+') = style.headerLines.length + 1 := by
  have hlines := style.isLine_of_mem_headerLines
  have hended := Diff.endedLines_ended_append hlines text
  have hnew := style.return_not_mem_stamp hreturn
  rw [content_stamp_of_unsigned style hend hunsigned] at hnew ⊢
  obtain ⟨shown, hrender, hsplit, hsigns, hkept, hcount⟩ :=
    Diff.render_insertion path hreturn hnew ⟨_, hended.symm⟩
  refine ⟨shown, hrender, hsplit, hsigns, hkept, ?_⟩
  rw [hended, List.length_append, List.length_map, List.length_append, List.length_singleton]
    at hcount
  exact Nat.add_right_cancel hcount

/-- A script that starts with the first line of its header and an empty line, and goes on with the
    last line of the header. -/
theorem render_stamp_inserts_overlapping :
    let text : Text := ['/', '*', '\n', '\n', ' ', '*', '/', '\n']
    '\r' ∉ text ∧ (∀ line ∈ (Text.lines text).take 40, ¬ Obsolete.Signed line) ∧
      ∃ shown : List Text,
        Diff.render (.ofText ['p']) text (HeaderStyle.code.stamp text).content =
          Diff.heading (.ofText ['p']) ++ Text.ended shown ∧
        (∀ line ∈ shown, line.head? = some '+' ∨ line.head? = some ' ') ∧
        (shown.filter fun line => line.head? = some ' ').map List.tail =
          [['/', '*'], [], [' ', '*', '/']] ∧
        shown.countP (fun line => line.head? = some '+') = 16 := by
  intro text
  have hreturn : '\r' ∉ text := by decide
  have hunsigned : ∀ line ∈ (Text.lines text).take 40, ¬ Obsolete.Signed line :=
    Obsolete.strip?_eq_none_iff_signed.1 (by decide +kernel)
  have hlength : HeaderStyle.code.headerLines.length = 15 := by decide
  obtain ⟨shown, hrender, -, hsigns, hkept, hcount⟩ := render_stamp_inserts .code (.ofText ['p'])
    hreturn ⟨['/', '*', '\n', '\n', ' ', '*'], '/', rfl, by decide⟩ hunsigned
  rw [hlength] at hcount
  exact ⟨hreturn, hunsigned, shown, hrender, hsigns, hkept, hcount⟩

end HeaderStyle

end LicenseStamp

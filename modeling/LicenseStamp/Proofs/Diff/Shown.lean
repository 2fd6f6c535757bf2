import LicenseStamp.Diff.Render
import LicenseStamp.Proofs.Diff.Sides
import LicenseStamp.Proofs.Text.Rejoining

/-! # What a line diff shows

Both texts can be read off a line diff: behind a minus or a blank stand the lines of the old text,
behind a plus or a blank those of the new one, all of them and in order. Equal texts show no change.
-/

namespace LicenseStamp.Diff

variable {α : Type}

/-! ## Marked items -/

/-- Whether an item with a mark is on a side. -/
def Mark.isOn (side : Side) : Mark → Bool
  | .kept => true
  | .removed => side = .old
  | .added => side = .new

/-- The marked items of one side. -/
def viewOf (side : Side) (changes : List (Mark × α)) : List α :=
  (changes.filter fun change => change.1.isOn side).map Prod.snd

theorem viewOf_append (side : Side) (first second : List (Mark × α)) :
    viewOf side (first ++ second) = viewOf side first ++ viewOf side second := by
  rw [viewOf, List.filter_append, List.map_append, viewOf, viewOf]

theorem viewOf_map (side : Side) (mark : Mark) (items : List α) :
    viewOf side (items.map (mark, ·)) = if mark.isOn side then items else [] := by
  simp only [viewOf, List.filter_map, List.map_map, Function.comp_def]
  cases mark.isOn side <;> simp

/-- The marked items of a side are the items of that side in the script, after those that are still
    to be shown. -/
theorem viewOf_changesAfter (side : Side) (gone come : List α) (script : Script α) :
    viewOf side (script.changesAfter gone come) =
      (if side = .old then gone else come) ++ script.view side := by
  fun_induction Script.changesAfter gone come script with
  | case1 gone come =>
      rw [viewOf_append, viewOf_map, viewOf_map]
      cases side <;> simp [Mark.isOn]
  | case2 gone come items rest ih =>
      rw [viewOf_append, ih, viewOf_append, viewOf_append, viewOf_map, viewOf_map, viewOf_map]
      cases side <;> simp [Mark.isOn]
  | case3 gone come items rest ih =>
      rw [ih]
      cases side <;> simp [Edit.view_only]
  | case4 gone come items rest ih =>
      rw [ih]
      cases side <;> simp [Edit.view_only]

theorem viewOf_changes (side : Side) (script : Script α) :
    viewOf side script.changes = script.view side := by
  rw [Script.changes, viewOf_changesAfter]
  cases side <;> rfl

theorem mem_viewOf {side : Side} {changes : List (Mark × α)} {change : Mark × α}
    (hmem : change ∈ changes) (hon : change.1.isOn side = true) : change.2 ∈ viewOf side changes :=
  List.mem_map_of_mem (List.mem_filter.2 ⟨hmem, hon⟩)

theorem Mark.exists_isOn (mark : Mark) : ∃ side, mark.isOn side = true := by
  cases mark with
  | kept => exact ⟨.old, rfl⟩
  | removed => exact ⟨.old, rfl⟩
  | added => exact ⟨.new, rfl⟩

/-! ## Lines with their ends -/

variable {text line : Text} {c : Char}

theorem endedLines_cons_of_ne {rest : Text} (hfeed : c ≠ '\n') (hreturn : c ≠ '\r') :
    endedLines (c :: rest) = Text.consLine c (endedLines rest) :=
  endedLines.eq_5 c rest hfeed (fun _ same _ => hreturn same) hreturn

theorem closeLine_cons (hfeed : c ≠ '\n') (hreturn : c ≠ '\r') (line : Text) :
    closeLine (c :: line) = c :: closeLine line := by
  cases line with
  | nil => simp [closeLine, hfeed, hreturn]
  | cons d rest =>
      rw [closeLine, List.getLast?_cons_cons, closeLine,
        List.getLast?_eq_some_getLast (List.cons_ne_nil d rest)]
      simp only [List.cons_append]
      split <;> rfl

/-- Without carriage returns, closed lines are the lines of a text with a line feed each. -/
theorem map_closeLine_endedLines (h : '\r' ∉ text) :
    (endedLines text).map closeLine = (Text.lines text).map (· ++ ['\n']) := by
  induction text with
  | nil => rfl
  | cons c rest ih =>
      obtain ⟨hc, hrest⟩ := not_or.1 (mt List.mem_cons.2 h)
      by_cases hfeed : c = '\n'
      · subst hfeed
        exact congrArg (['\n'] :: ·) (ih hrest)
      · rw [endedLines_cons_of_ne hfeed (Ne.symm hc), Text.lines_cons_of_ne hfeed (Ne.symm hc)]
        have ih := ih hrest
        cases hended : endedLines rest with
        | nil =>
            rw [hended, List.map_nil, eq_comm, List.map_eq_nil_iff] at ih
            rw [ih]
            exact congrArg (fun line => [line]) (closeLine_cons hfeed (Ne.symm hc) [])
        | cons first more =>
            rw [hended, List.map_cons, eq_comm, List.map_eq_cons_iff] at ih
            obtain ⟨line, later, hlines, hfirst, hmore⟩ := ih
            rw [hlines]
            simp only [Text.consLine, List.map_cons, closeLine_cons hfeed (Ne.symm hc), ← hfirst,
              hmore, List.cons_append]

/-! ## The lines of a diff -/

/-- A marked line as it stands in a diff, behind its sign and without a line end. -/
def shownLine (change : Mark × Text) : Text := change.1.sign :: (closeLine change.2).dropLast

theorem dropLast_closeLine_endedLines (h : '\r' ∉ text) :
    (endedLines text).map (fun line => (closeLine line).dropLast) = Text.lines text := by
  have hmap := congrArg (List.map List.dropLast) (map_closeLine_endedLines h)
  rw [List.map_map, List.map_map] at hmap
  simpa [Function.comp_def] using hmap

/-- The items that a diff marks as kept or removed are the lines of the old text. -/
theorem viewOf_old_ofTexts (old new : Text) :
    viewOf .old (ofTexts old new).changes = endedLines old := by
  rw [viewOf_changes, ofTexts, view_tidy]
  exact (between_align (endedLines old) (endedLines new)).old

theorem viewOf_new_ofTexts (old new : Text) :
    viewOf .new (ofTexts old new).changes = endedLines new := by
  rw [viewOf_changes, ofTexts, view_tidy]
  exact (between_align (endedLines old) (endedLines new)).new

/-- The items that a diff marks are lines of one of the two texts. -/
theorem exists_mem_endedLines {old new : Text} {change : Mark × Text}
    (h : change ∈ (ofTexts old new).changes) :
    change.2 ∈ endedLines old ∨ change.2 ∈ endedLines new := by
  obtain ⟨side, hon⟩ := change.1.exists_isOn
  have hmem := mem_viewOf h hon
  cases side with
  | old => exact .inl (viewOf_old_ofTexts old new ▸ hmem)
  | new => exact .inr (viewOf_new_ofTexts old new ▸ hmem)

variable {old new : Text}

/-- A change is shown as one line. -/
theorem showChange_eq (hold : '\r' ∉ old) (hnew : '\r' ∉ new) {change : Mark × Text}
    (h : change ∈ (ofTexts old new).changes) :
    showChange change = shownLine change ++ ['\n'] ∧ '\n' ∉ shownLine change := by
  have hline : ∃ line, closeLine change.2 = line ++ ['\n'] ∧ '\n' ∉ line := by
    have closed : ∀ {text : Text}, '\r' ∉ text → change.2 ∈ endedLines text →
        ∃ line, closeLine change.2 = line ++ ['\n'] ∧ '\n' ∉ line := by
      intro text hreturn hmem
      have hclosed := List.mem_map_of_mem (f := closeLine) hmem
      rw [map_closeLine_endedLines hreturn] at hclosed
      obtain ⟨line, hline, heq⟩ := List.mem_map.1 hclosed
      exact ⟨line, heq.symm, (Text.isLine_of_mem_lines hreturn hline).2⟩
    rcases exists_mem_endedLines h with hmem | hmem
    · exact closed hold hmem
    · exact closed hnew hmem
  obtain ⟨line, hclose, hfeed⟩ := hline
  rw [showChange, shownLine, hclose, List.dropLast_concat]
  refine ⟨rfl, fun hmem => ?_⟩
  rcases List.mem_cons.1 hmem with hsign | hmem
  · cases hmark : change.1 <;> simp [hmark, Mark.sign] at hsign
  · exact hfeed hmem

/-- Below its heading, a diff of texts without carriage returns shows one line for each change. -/
theorem render_eq_ended (path : Path) (hold : '\r' ∉ old) (hnew : '\r' ∉ new) :
    let shown := (ofTexts old new).changes.map shownLine
    render path old new = heading path ++ Text.ended shown ∧
      (Text.ended shown).splitOn '\n' = shown ++ [[]] := by
  intro shown
  refine ⟨?_, Text.splitOn_ended ?_⟩
  · rw [render, Text.ended, List.flatMap_map]
    refine congrArg (heading path ++ ·) (List.flatMap_congr fun change hchange => ?_)
    exact (showChange_eq hold hnew hchange).1
  · rintro line hline
    obtain ⟨change, hchange, rfl⟩ := List.mem_map.1 hline
    exact (showChange_eq hold hnew hchange).2

/-- The lines of one side that a diff shows are the marked items of that side. -/
theorem map_tail_filter_shownLine (side : Side) {isShown : Text → Bool}
    (hshown : ∀ (mark : Mark) (line : Text), isShown (mark.sign :: line) = mark.isOn side)
    (changes : List (Mark × Text)) :
    ((changes.map shownLine).filter isShown).map List.tail =
      (viewOf side changes).map fun line => (closeLine line).dropLast := by
  have hfilter : isShown ∘ shownLine = fun change => change.1.isOn side :=
    funext fun change => hshown change.1 _
  rw [List.filter_map, List.map_map, viewOf, List.map_map, hfilter]
  rfl

/-- Equal texts have no changes. -/
theorem changes_ofTexts_self (text : Text) :
    ∀ change ∈ (ofTexts text text).changes, change.1 = .kept := by
  have hkeeps : ∀ edit ∈ keepIfAny (endedLines text), ∀ side, Edit.isOnly side edit = false := by
    unfold keepIfAny
    split <;> simp [Edit.isOnly]
  rw [ofTexts, align_self, tidy_of_keeps hkeeps]
  unfold keepIfAny
  split <;> simp [Script.changes, Script.changesAfter]

/-- A diff of texts without carriage returns shows, below its heading, lines that start with a minus,
    a plus or a blank. Without their signs, the lines behind a minus or a blank are the lines of the
    old text, and those behind a plus or a blank are the lines of the new one. If the texts are
    equal, all lines stand behind a blank. -/
theorem render_shows_lines (path : Path) (hold : '\r' ∉ old) (hnew : '\r' ∉ new) :
    ∃ shown : List Text, render path old new = heading path ++ Text.ended shown ∧
      (Text.ended shown).splitOn '\n' = shown ++ [[]] ∧
      (∀ line ∈ shown, line.head? = some '-' ∨ line.head? = some '+' ∨ line.head? = some ' ') ∧
      (shown.filter fun line => line.head? = some '-' ∨ line.head? = some ' ').map List.tail =
        Text.lines old ∧
      (shown.filter fun line => line.head? = some '+' ∨ line.head? = some ' ').map List.tail =
        Text.lines new ∧
      (old = new → ∀ line ∈ shown, line.head? = some ' ') := by
  obtain ⟨hrender, hsplit⟩ := render_eq_ended path hold hnew
  refine ⟨_, hrender, hsplit, ?_, ?_, ?_, ?_⟩
  · intro line hline
    obtain ⟨⟨mark, item⟩, hchange, rfl⟩ := List.mem_map.1 hline
    cases mark <;> simp [shownLine, Mark.sign]
  · rw [map_tail_filter_shownLine .old (by rintro (_ | _ | _) line <;> rfl), viewOf_old_ofTexts,
      dropLast_closeLine_endedLines hold]
  · rw [map_tail_filter_shownLine .new (by rintro (_ | _ | _) line <;> rfl), viewOf_new_ofTexts,
      dropLast_closeLine_endedLines hnew]
  · rintro rfl line hline
    obtain ⟨change, hchange, rfl⟩ := List.mem_map.1 hline
    rw [shownLine, changes_ofTexts_self old change hchange]
    rfl

/-- A line without an end is read off a diff like one with an end. -/
theorem render_shows_lines_unended :
    let old : Text := ['b']
    let new : Text := ['a', '\n', 'b', '\n']
    '\r' ∉ old ∧ '\r' ∉ new ∧
      ∃ shown : List Text, render (.ofText ['p']) old new = heading (.ofText ['p']) ++ Text.ended shown ∧
        (shown.filter fun line => line.head? = some '-' ∨ line.head? = some ' ').map List.tail =
          [['b']] ∧
        (shown.filter fun line => line.head? = some '+' ∨ line.head? = some ' ').map List.tail =
          [['a'], ['b']] := by
  intro old new
  have hold : '\r' ∉ old := by decide
  have hnew : '\r' ∉ new := by decide
  obtain ⟨shown, hrender, -, -, hminus, hplus, -⟩ := render_shows_lines (.ofText ['p']) hold hnew
  exact ⟨hold, hnew, shown, hrender, hminus, hplus⟩

end LicenseStamp.Diff

import LicenseStamp.Header.Obsolete
import LicenseStamp.Proofs.Text.Rejoining
import Mathlib.Order.Bounds.Basic

/-! # What is removed with an obsolete header

The removal of an obsolete header cuts a text at the start of a line. The header starts at the
first line in the window that holds a signature, it ends at the next blank line, and the rest
starts at the next line after that one which is not blank. All above is dropped and
nothing of the rest is changed, save that a line feed at its very end may go.
-/

namespace LicenseStamp.Obsolete

/-- A line that holds a signature once it is written in lower case. -/
def Signed (line : Text) : Prop := ∃ signature ∈ signatures, signature <:+: Text.lower line

/-- The index of the first line with a property from `start` on, or the number of lines when there
    is none. -/
def IsFirstFrom (property : Text → Prop) (ls : List Text) (start index : Nat) : Prop :=
  IsLeast {i | i = ls.length ∨ start ≤ i ∧ ∃ line, ls[i]? = some line ∧ property line} index

/-- Where an obsolete header stands in some lines, and where the rest of them begins. -/
structure Extent (ls : List Text) (top blank rest : Nat) : Prop where
  signed : IsLeast {i | i < 40 ∧ ∃ line, ls[i]? = some line ∧ Signed line} top
  ends : IsFirstFrom (fun line => Text.isBlankLine line = true) ls (top + 1) blank
  resumes : IsFirstFrom (fun line => Text.isBlankLine line = false) ls (blank + 1) rest

/-- The text above the line of an index; all of it when there is no such line. -/
def above (text : Text) (index : Nat) : Text :=
  if index < (Text.lines text).length then Text.ended ((Text.lines text).take index) else text

variable {text line kept : Text} {ls : List Text} {top blank rest : Nat}

theorem isSigned_iff : isSigned line = true ↔ Signed line := by
  simp only [isSigned, List.any_eq_true, Text.contains_iff, Signed]

theorem strip?_eq_none_iff_signed :
    strip? text = none ↔ ∀ line ∈ (Text.lines text).take 40, ¬ Signed line := by
  simp only [strip?_eq_none_iff, ← isSigned_iff, Bool.not_eq_true, window]

/-! ## Where the rest begins -/

/-- Lines are dropped up to the first one with a property. -/
theorem exists_isFirstFrom (holds : Text → Bool) (ls : List Text) (start : Nat) :
    ∃ index, IsFirstFrom (fun line => holds line = true) ls start index ∧
      (ls.drop start).dropWhile (fun line => !holds line) = ls.drop index := by
  let passed := (ls.drop start).findIdx holds
  have hpassed : passed ≤ ls.length - start := by
    rw [← List.length_drop]
    exact List.findIdx_le_length
  have hdrop : (ls.drop start).dropWhile (fun line => !holds line) = ls.drop (start + passed) := by
    simp only [List.dropWhile_eq_drop_findIdx_not, Bool.not_not, List.drop_drop]
    rfl
  refine ⟨min (start + passed) ls.length, ⟨?_, ?_⟩, ?_⟩
  · by_cases hin : start + passed < ls.length
    · have hfound : passed < (ls.drop start).length := by
        rw [List.length_drop]
        omega
      have hholds : holds (ls.drop start)[passed] = true := List.findIdx_getElem
      rw [Nat.min_eq_left hin.le]
      exact .inr ⟨Nat.le_add_right _ _, _, List.getElem?_eq_getElem hin, by
        rwa [List.getElem_drop] at hholds⟩
    · exact .inl (Nat.min_eq_right (Nat.le_of_not_lt hin))
  · rintro i (rfl | ⟨hstart, line, hline, hholds⟩)
    · exact Nat.min_le_right _ _
    · -- a line between the start and the one found does not have the property
      by_contra hbefore
      obtain ⟨hin, rfl⟩ := List.getElem?_eq_some_iff.1 hline
      have hpast : i - start < passed := by omega
      have hmisses := List.not_of_lt_findIdx hpast
      rw [List.getElem_drop] at hmisses
      simp only [Nat.add_sub_cancel' hstart, hholds] at hmisses
      cases hmisses
  · rw [hdrop]
    by_cases hin : start + passed ≤ ls.length
    · rw [Nat.min_eq_left hin]
    · rw [Nat.min_eq_right (Nat.le_of_not_le hin), List.drop_eq_nil_of_le (Nat.le_of_not_le hin),
        List.drop_length]

/-- The first signed line among the first ones is the signed line with the least index there. -/
theorem findIdx?_take_eq_some_iff {window : Nat} :
    (ls.take window).findIdx? isSigned = some top ↔
      IsLeast {i | i < window ∧ ∃ line, ls[i]? = some line ∧ Signed line} top := by
  rw [List.findIdx?_eq_some_iff_getElem]
  simp only [List.getElem_take, isSigned_iff, List.length_take, Nat.lt_min]
  constructor
  · rintro ⟨hin, hsigned, hbefore⟩
    refine ⟨⟨hin.1, _, List.getElem?_eq_getElem hin.2, hsigned⟩, ?_⟩
    rintro i ⟨_, line, hline, hsigned⟩
    by_contra hlt
    obtain ⟨_, rfl⟩ := List.getElem?_eq_some_iff.1 hline
    exact absurd hsigned (hbefore i (Nat.lt_of_not_le hlt))
  · rintro ⟨⟨hwindow, line, hline, hsigned⟩, hleast⟩
    obtain ⟨hin, rfl⟩ := List.getElem?_eq_some_iff.1 hline
    refine ⟨⟨hwindow, hin⟩, hsigned, fun i hi hsigned => ?_⟩
    have hle := hleast ⟨hi.trans hwindow, _, List.getElem?_eq_getElem (hi.trans hin), hsigned⟩
    exact absurd hi (Nat.not_lt_of_le hle)

theorem findIdx?_take_eq_none_iff {window : Nat} :
    (ls.take window).findIdx? isSigned = none ↔
      {i | i < window ∧ ∃ line, ls[i]? = some line ∧ Signed line} = ∅ := by
  constructor
  · intro h
    rw [List.findIdx?_eq_none_iff] at h
    rw [Set.eq_empty_iff_forall_notMem]
    rintro i ⟨hi, line, hline, hsigned⟩
    have hmem : line ∈ ls.take window :=
      List.mem_iff_getElem?.2 ⟨i, by rw [List.getElem?_take_of_lt hi, hline]⟩
    exact absurd (isSigned_iff.2 hsigned) (by rw [h line hmem]; exact Bool.false_ne_true)
  · intro hempty
    cases hfind : (ls.take window).findIdx? isSigned with
    | none => rfl
    | some top =>
        have htop := (findIdx?_take_eq_some_iff.1 hfind).1
        rw [hempty] at htop
        exact absurd htop (Set.notMem_empty top)

theorem isLeast_of_findLine? (h : findLine? ls = some top) :
    IsLeast {i | i < 40 ∧ ∃ line, ls[i]? = some line ∧ Signed line} top :=
  findIdx?_take_eq_some_iff.1 h

/-- The lines below a header are those from where its extent says that the rest begins. -/
theorem exists_extent (h : findLine? ls = some top) :
    ∃ blank rest, Extent ls top blank rest ∧ below (ls.drop top) = ls.drop rest := by
  obtain ⟨blank, hends, hheader⟩ := exists_isFirstFrom Text.isBlankLine ls (top + 1)
  obtain ⟨rest, hresumes, hblanks⟩ :=
    exists_isFirstFrom (fun line => !Text.isBlankLine line) ls (blank + 1)
  simp only [Bool.not_eq_true', Bool.not_not] at hresumes hblanks
  refine ⟨blank, rest, ⟨isLeast_of_findLine? h, hends, hresumes⟩, ?_⟩
  simp only [below, List.drop_drop, hheader]
  exact hblanks

namespace Extent

theorem top_lt (h : Extent ls top blank rest) : top < ls.length := by
  obtain ⟨_, line, hline, _⟩ := h.signed.1
  exact (List.getElem?_eq_some_iff.1 hline).1

theorem top_lt_rest (h : Extent ls top blank rest) : top < rest := by
  have htop := h.top_lt
  rcases h.resumes.1 with hrest | ⟨hrest, _⟩
  · rwa [hrest]
  · rcases h.ends.1 with hblank | ⟨hblank, _⟩ <;> omega

/-- The first line of the rest is not blank. -/
theorem exists_drop_eq (h : Extent ls top blank rest) (hin : rest < ls.length) :
    ∃ line more, ls.drop rest = line :: more ∧ Text.isBlankLine line = false := by
  rcases h.resumes.1 with hend | ⟨_, line, hline, hblank⟩
  · exact absurd hend hin.ne
  · obtain ⟨_, rfl⟩ := List.getElem?_eq_some_iff.1 hline
    exact ⟨_, _, List.drop_eq_getElem_cons hin, hblank⟩

end Extent

/-! ## What is kept -/

/-- Without carriage returns a text is what stands above a line and the lines from there on,
    perhaps with a line feed behind them. -/
theorem eq_above_append (h : '\r' ∉ text) (index : Nat) :
    text = above text index ++ Text.unlines ((Text.lines text).drop index) ∨
      text = above text index ++ Text.unlines ((Text.lines text).drop index) ++ ['\n'] := by
  by_cases hin : index < (Text.lines text).length
  · have hne : (Text.lines text).drop index ≠ [] := by
      rw [Ne, List.drop_eq_nil_iff]
      omega
    have hcut : above text index ++ Text.unlines ((Text.lines text).drop index) =
        Text.unlines (Text.lines text) := by
      rw [above, if_pos hin, ← Text.unlines_append hne, List.take_append_drop]
    rw [hcut]
    exact Text.eq_unlines_lines h
  · rw [above, if_neg hin, List.drop_eq_nil_of_le (Nat.le_of_not_lt hin)]
    exact .inl (List.append_nil text).symm

theorem Extent.above_ne_nil (h : Extent (Text.lines text) top blank rest) : above text rest ≠ [] := by
  have htop := h.top_lt
  have hrest := h.top_lt_rest
  unfold above
  split
  · apply Text.ended_ne_nil
    rw [Ne, List.take_eq_nil_iff, not_or, ← List.length_eq_zero_iff]
    omega
  · rintro rfl
    cases htop

theorem strip?_eq_some (h : strip? text = some kept) :
    ∃ top blank rest, Extent (Text.lines text) top blank rest ∧
      kept = Text.unlines ((Text.lines text).drop rest) := by
  obtain ⟨top, htop, rfl⟩ := Option.map_eq_some_iff.1 h
  obtain ⟨blank, rest, hextent, hbelow⟩ := exists_extent htop
  exact ⟨top, blank, rest, hextent, congrArg Text.unlines hbelow⟩

/-- Something is removed with every header, at least its first line. -/
theorem ne_of_strip? (hreturn : '\r' ∉ text) (h : strip? text = some kept) : kept ≠ text := by
  obtain ⟨top, blank, rest, hextent, rfl⟩ := strip?_eq_some h
  have hpos := List.length_pos_iff.2 hextent.above_ne_nil
  intro hsame
  have hkept := congrArg List.length hsame
  rcases eq_above_append hreturn rest with hcut | hcut
  · have htext := congrArg List.length hcut
    rw [List.length_append] at htext
    omega
  · have htext := congrArg List.length hcut
    rw [List.length_append, List.length_append] at htext
    omega

theorem strip_eq_self_iff (hreturn : '\r' ∉ text) : strip text = text ↔ strip? text = none := by
  rw [strip]
  cases hstrip : strip? text with
  | none => simp
  | some kept => simpa using ne_of_strip? hreturn hstrip

/-- The rest of a text starts with its first line that is not blank. -/
theorem Extent.lines_unlines_drop (h : Extent (Text.lines text) top blank rest) (hreturn : '\r' ∉ text)
    (hin : rest < (Text.lines text).length) :
    ∃ line more, Text.lines (Text.unlines ((Text.lines text).drop rest)) = line :: more ∧
      (Text.lines text)[rest]? = some line ∧ Text.isBlankLine line = false := by
  obtain ⟨line, more, hdrop, hblank⟩ := h.exists_drop_eq hin
  have hline : Text.IsLine line := by
    apply Text.isLine_of_mem_lines hreturn
    apply List.mem_of_mem_drop (i := rest)
    rw [hdrop]
    exact List.mem_cons_self
  have hne : line ≠ [] := by
    rintro rfl
    cases hblank
  have hget : (Text.lines text)[rest]? = some line := by
    rw [← List.head?_drop, hdrop, List.head?_cons]
  rw [hdrop]
  cases more with
  | nil => exact ⟨line, [], Text.lines_of_isLine hline hne, hget, hblank⟩
  | cons next later =>
      rw [Text.unlines_cons line (List.cons_ne_nil _ _), Text.lines_append_feed_cons hline]
      exact ⟨line, _, rfl, hget, hblank⟩

/-- A text is left alone if and only if no signature stands in its first 40 lines. Otherwise it is
    cut at the start of a line: what is kept starts at the first line that is not blank
    after the first blank line below the first signed one, and is all that follows there, but for
    a line feed at the very end of the text. -/
theorem strip_keeps_rest (h : '\r' ∉ text) :
    (strip? text = none ↔ ∀ line ∈ (Text.lines text).take 40, ¬ Signed line) ∧
      (strip text = text ↔ ∀ line ∈ (Text.lines text).take 40, ¬ Signed line) ∧
      ((∃ line ∈ (Text.lines text).take 40, Signed line) →
        ∃ top blank rest kept, Extent (Text.lines text) top blank rest ∧
          strip? text = some kept ∧ strip text = kept ∧
          (text = above text rest ++ kept ∨ text = above text rest ++ kept ++ ['\n']) ∧
          (rest = (Text.lines text).length → above text rest = text ∧ kept = []) ∧
          (kept ≠ [] → ∃ line more, Text.lines kept = line :: more ∧
            (Text.lines text)[rest]? = some line ∧ Text.isBlankLine line = false)) := by
  refine ⟨strip?_eq_none_iff_signed, ?_, ?_⟩
  · rw [strip_eq_self_iff h, strip?_eq_none_iff_signed]
  · rintro ⟨line, hline, hsigned⟩
    cases hstrip : strip? text with
    | none => exact absurd hsigned (strip?_eq_none_iff_signed.1 hstrip line hline)
    | some kept =>
        obtain ⟨top, blank, rest, hextent, rfl⟩ := strip?_eq_some hstrip
        refine ⟨top, blank, rest, _, hextent, rfl, by rw [strip, hstrip, Option.getD_some],
          eq_above_append h rest, ?_, ?_⟩
        · intro hend
          rw [above, if_neg (by omega), hend, List.drop_length]
          exact ⟨rfl, rfl⟩
        · intro hne
          apply hextent.lines_unlines_drop h
          by_contra hend
          rw [List.drop_eq_nil_of_le (Nat.le_of_not_lt hend)] at hne
          exact hne rfl

/-- Of a script with a header below its first line the last lines are kept, blank ones between them
    included, and the line feed behind the last one goes. -/
theorem strip_keeps_rest_script :
    let header : Text := ['#', '\n', '/', '/', ' ', 'M', 'I', 'T', ' ', 'L', 'i', 'c', 'e', 'n', 's', 'e']
    let kept : Text := ['a', ';', '\n', '\n', 'b', ';', '\n']
    let script := header ++ ['\n', '\t', '\n', '\n'] ++ kept ++ ['\n']
    '\r' ∉ script ∧ (∃ line ∈ (Text.lines script).take 40, Signed line) ∧ strip script = kept ∧
      ∃ top blank rest, Extent (Text.lines script) top blank rest ∧
        (script = above script rest ++ kept ∨ script = above script rest ++ kept ++ ['\n']) := by
  intro header kept script
  have hreturn : '\r' ∉ script := by decide
  have hsigned : ∃ line ∈ (Text.lines script).take 40, Signed line :=
    ⟨header.drop 2, by decide +kernel, isSigned_iff.1 (by decide +kernel)⟩
  have hstrip : strip script = kept := by decide +kernel
  obtain ⟨-, -, hrest⟩ := strip_keeps_rest hreturn
  obtain ⟨top, blank, rest, _, hextent, -, hkept, hcut, -⟩ := hrest hsigned
  rw [← hkept, hstrip] at hcut
  exact ⟨hreturn, hsigned, hstrip, top, blank, rest, hextent, hcut⟩

end LicenseStamp.Obsolete

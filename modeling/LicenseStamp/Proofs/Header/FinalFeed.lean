import LicenseStamp.Proofs.Text.LineEnds
import LicenseStamp.Proofs.Text.Lines

/-! # A line feed at the end

Whether the last line of a text is ended does not matter for its header: one more line feed at
the end of a text is at most one more empty line, which neither starts nor ends an obsolete
header, and which is trimmed from the end of the stamped text.
-/

namespace LicenseStamp

namespace Obsolete

variable {text body : Text} {ls : List Text}

/-- No signature is empty. -/
theorem isSigned_nil : isSigned [] = false := by
  have hne : ∀ signature ∈ signatures, signature ≠ [] := by simp [signatures]
  rw [isSigned, List.any_eq_false]
  intro signature hsignature
  rw [Text.contains_iff]
  intro hinfix
  exact hne _ hsignature (List.infix_nil.1 hinfix)

/-- An empty line is not signed. -/
theorem findLine?_concat (ls : List Text) : findLine? (ls ++ [[]]) = findLine? ls := by
  have hlast : ∀ n, (([[]] : List Text).take n).findIdx? isSigned = none := by
    intro n
    rw [List.findIdx?_eq_none_iff]
    intro line hline
    obtain rfl := List.mem_singleton.1 (List.mem_of_mem_take hline)
    exact isSigned_nil
  rw [findLine?, findLine?, List.take_append, List.findIdx?_append, hlast, Option.map_none,
    Option.or_none]

/-- An empty line at the end is removed with the header, or left as the last line. -/
theorem below_concat (hne : ls ≠ []) :
    below (ls ++ [[]]) = below ls ∨ below ls ≠ [] ∧ below (ls ++ [[]]) = below ls ++ [[]] := by
  have hblank : Text.isBlankLine [] = true := rfl
  obtain ⟨signed, rest, rfl⟩ := List.exists_cons_of_ne_nil hne
  simp only [below, List.cons_append, List.drop_succ_cons, List.drop_zero, List.dropWhile_append]
  cases rest.dropWhile fun line => !Text.isBlankLine line with
  | nil => exact .inl (by simp [hblank])
  | cons blank after =>
      simp only [List.isEmpty_cons, Bool.false_eq_true, if_false, List.cons_append,
        List.drop_succ_cons, List.drop_zero, List.dropWhile_append]
      cases after.dropWhile Text.isBlankLine with
      | nil => exact .inl (by simp [hblank])
      | cons first more => exact .inr ⟨List.cons_ne_nil _ _, rfl⟩

theorem strip?_append_feed (h : '\r' ∉ text) :
    strip? (text ++ ['\n']) = strip? text ∨
      ∃ body, strip? text = some body ∧ strip? (text ++ ['\n']) = some (body ++ ['\n']) := by
  rcases Text.lines_append_feed h with hsame | hmore
  · exact .inl (by rw [strip?, strip?, hsame])
  · rw [strip?, strip?, hmore, findLine?_concat]
    cases hfind : findLine? (Text.lines text) with
    | none => exact .inl rfl
    | some start =>
        -- the signed line is one of the lines that were there before
        have hstart : start < (Text.lines text).length := by
          have htake := (List.findIdx?_eq_some_iff_getElem.1 hfind).1
          rw [List.length_take] at htake
          omega
        have hne : (Text.lines text).drop start ≠ [] := by
          rw [Ne, List.drop_eq_nil_iff]
          omega
        rw [Option.map_some, Option.map_some, List.drop_append_of_le_length (Nat.le_of_lt hstart)]
        rcases below_concat hne with hsame | ⟨hbelow, hmore⟩
        · exact .inl (by rw [hsame])
        · exact .inr ⟨_, rfl, by rw [hmore, Text.unlines_concat hbelow]⟩

theorem return_not_mem_strip (h : '\r' ∉ text) : '\r' ∉ strip text := by
  rw [strip, strip?]
  cases findLine? (Text.lines text) with
  | none => exact h
  | some start =>
      rw [Option.map_some, Option.getD_some]
      intro hmem
      rcases Text.mem_of_mem_unlines hmem with hfeed | ⟨line, hline, hmem⟩
      · cases hfeed
      · have hlines : line ∈ Text.lines text := List.mem_of_mem_drop <|
          List.mem_of_mem_drop <| (List.dropWhile_suffix _).subset <| List.mem_of_mem_drop <|
            (List.dropWhile_suffix _).subset hline
        exact h (Text.mem_of_mem_lines hlines hmem)

end Obsolete

namespace HeaderStyle

variable {style : HeaderStyle} {text : Text}

theorem compose_append_feed (style : HeaderStyle) (body : Text) :
    style.compose (body ++ ['\n']) = style.compose body := by
  have htrim := @Text.trimEnd_append_of_blank ['\n'] rfl (style.header ++ '\n' :: body)
  rw [List.append_assoc, List.cons_append] at htrim
  rw [compose, compose, htrim]

/-- One more line feed at the end of a text does not change what is stamped. -/
theorem stamp_append_feed (style : HeaderStyle) (h : '\r' ∉ text) :
    style.stamp (text ++ ['\n']) = style.stamp text := by
  rw [stamp, stamp, Obsolete.strip, Obsolete.strip]
  rcases Obsolete.strip?_append_feed h with hsame | ⟨body, hbody, hmore⟩
  · rw [hsame]
    cases Obsolete.strip? text with
    | none => simp only [Option.getD_none, compose_append_feed]
    | some body => rfl
  · rw [hbody, hmore]
    simp only [Option.getD_some, compose_append_feed, Option.isSome_some]

/-- The lines of the header and the empty line below it hold neither line ends nor a signature. -/
theorem plain_of_mem_headerLines (style : HeaderStyle) :
    ∀ line ∈ style.headerLines ++ [[]], Text.IsLine line ∧ Obsolete.isSigned line = false := by
  -- the kernel is slow to decode a literal, so the characters of each are spelled out first
  unfold headerLines notice marker starred Text.IsLine Obsolete.isSigned Obsolete.signatures
  repeat rw [String.toList_ofList]
  cases style <;> decide +kernel

theorem isLine_of_mem_headerLines (style : HeaderStyle) :
    ∀ line ∈ style.headerLines ++ [[]], Text.IsLine line := by
  intro line hline
  exact (style.plain_of_mem_headerLines line hline).1

theorem return_not_mem_header (style : HeaderStyle) : '\r' ∉ style.header := by
  intro hmem
  obtain ⟨line, hline, hmem⟩ := List.mem_flatMap.1 hmem
  rcases List.mem_append.1 hmem with hreturn | hfeed
  · exact (style.isLine_of_mem_headerLines line (List.mem_append_left _ hline)).1 hreturn
  · cases List.mem_singleton.1 hfeed

/-- A stamped text has line feeds as its only line ends if the old one has. -/
theorem return_not_mem_stamp (style : HeaderStyle) (h : '\r' ∉ text) :
    '\r' ∉ (style.stamp text).content := by
  intro hmem
  rcases List.mem_append.1 hmem with htrimmed | hfeed
  · rcases List.mem_append.1 (Text.mem_of_mem_trimEnd htrimmed) with hheader | hbody
    · exact style.return_not_mem_header hheader
    · rcases List.mem_cons.1 hbody with hfeed | hstrip
      · cases hfeed
      · exact Obsolete.return_not_mem_strip h hstrip
  · simp at hfeed

end HeaderStyle

/-- One more line feed at the end of a text does not change whether it carries the marker. -/
theorem hasMarker_append_feed (text : Text) : hasMarker (text ++ ['\n']) = hasMarker text := by
  rw [Bool.eq_iff_iff, hasMarker, hasMarker, Text.contains_iff, Text.contains_iff]
  refine ⟨fun h => ?_, fun h => h.trans (List.prefix_append _ _).isInfix⟩
  rcases List.infix_concat_iff.1 h with hsuffix | hinfix
  · rcases List.suffix_concat_iff.1 hsuffix with hnil | ⟨front, hmarker, -⟩
    · exact absurd hnil HeaderStyle.marker_ne_nil
    · have hfeed : '\n' ∈ HeaderStyle.marker := by simp [hmarker]
      exact absurd hfeed HeaderStyle.feed_not_mem_marker
  · exact hinfix

end LicenseStamp

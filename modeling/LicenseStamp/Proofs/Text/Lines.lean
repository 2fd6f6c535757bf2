import LicenseStamp.Text.Blank
import LicenseStamp.Text.Lines

/-! # Lines of a text

The lines of a text and the text of some lines hold no other characters than each other, apart
from line ends. One more line feed at the end of a text is at most one more empty line.
-/

namespace LicenseStamp

namespace Text

variable {text line : Text} {ls : List Text} {c : Char}

theorem lines_cons_of_ne {rest : Text} (hfeed : c ≠ '\n') (hreturn : c ≠ '\r') :
    lines (c :: rest) = consLine c (lines rest) :=
  lines.eq_4 c rest hfeed fun _ same _ => hreturn same

/-- One more line feed at the end of a text ends its last line, or is an empty line. -/
theorem lines_append_feed (h : '\r' ∉ text) :
    lines (text ++ ['\n']) = lines text ∨ lines (text ++ ['\n']) = lines text ++ [[]] := by
  induction text with
  | nil => exact .inr rfl
  | cons c rest ih =>
      obtain ⟨hc, hrest⟩ := not_or.1 (mt List.mem_cons.2 h)
      by_cases hfeed : c = '\n'
      · subst hfeed
        rcases ih hrest with hsame | hmore
        · exact .inl (congrArg ([] :: ·) hsame)
        · exact .inr (congrArg ([] :: ·) hmore)
      · rw [List.cons_append, lines_cons_of_ne hfeed (Ne.symm hc),
          lines_cons_of_ne hfeed (Ne.symm hc)]
        rcases ih hrest with hsame | hmore
        · exact .inl (by rw [hsame])
        · rw [hmore]
          cases lines rest with
          | nil => exact .inl rfl
          | cons => exact .inr rfl

theorem unlines_concat (hne : ls ≠ []) : unlines (ls ++ [[]]) = unlines ls ++ ['\n'] := by
  rw [unlines, unlines]
  fun_induction join ['\n'] ls with
  | case1 => exact absurd rfl hne
  | case2 piece => simp [join]
  | case3 piece next rest ih =>
      have hrest := ih (List.cons_ne_nil _ _)
      simp only [List.cons_append, join, List.append_assoc] at hrest ⊢
      rw [hrest]

theorem trimEnd_append_of_blank {tail : Text} (hblank : isBlankLine tail = true) (text : Text) :
    trimEnd (text ++ tail) = trimEnd text := by
  induction text with
  | nil => exact trimEnd_blank hblank
  | cons c rest ih => rw [List.cons_append, trimEnd, trimEnd, ih]

theorem mem_of_mem_trimEnd (h : c ∈ trimEnd text) : c ∈ text := by
  obtain ⟨tail, -, htext⟩ := exists_blank_tail text
  rw [htext]
  exact List.mem_append_left _ h

theorem mem_of_mem_consLine {d : Char} (hline : line ∈ consLine d ls) (h : c ∈ line) :
    c = d ∨ ∃ other ∈ ls, c ∈ other := by
  cases ls with
  | nil =>
      obtain rfl := List.mem_singleton.1 hline
      exact .inl (List.mem_singleton.1 h)
  | cons first rest =>
      rcases List.mem_cons.1 hline with rfl | hline
      · rcases List.mem_cons.1 h with rfl | h
        · exact .inl rfl
        · exact .inr ⟨first, List.mem_cons_self, h⟩
      · exact .inr ⟨line, List.mem_cons_of_mem _ hline, h⟩

theorem mem_of_mem_lines (hline : line ∈ lines text) (h : c ∈ line) : c ∈ text := by
  fun_induction lines text generalizing line with
  | case1 => cases hline
  | case2 rest ih =>
      rcases List.mem_cons.1 hline with rfl | hline
      · cases h
      · exact List.mem_cons_of_mem _ (ih hline h)
  | case3 rest ih =>
      rcases List.mem_cons.1 hline with rfl | hline
      · cases h
      · exact List.mem_cons_of_mem _ (List.mem_cons_of_mem _ (ih hline h))
  | case4 d rest _ _ ih =>
      rcases mem_of_mem_consLine hline h with rfl | ⟨other, hother, hmem⟩
      · exact List.mem_cons_self
      · exact List.mem_cons_of_mem _ (ih hother hmem)

theorem mem_of_mem_unlines (h : c ∈ unlines ls) : c = '\n' ∨ ∃ line ∈ ls, c ∈ line := by
  rw [unlines] at h
  fun_induction join ['\n'] ls with
  | case1 => cases h
  | case2 piece => exact .inr ⟨piece, List.mem_cons_self, h⟩
  | case3 piece next rest ih =>
      simp only [List.mem_append, List.mem_singleton, or_assoc] at h
      rcases h with hpiece | hfeed | hrest
      · exact .inr ⟨piece, List.mem_cons_self, hpiece⟩
      · exact .inl hfeed
      · rcases ih hrest with hfeed | ⟨line, hline, hmem⟩
        · exact .inl hfeed
        · exact .inr ⟨line, List.mem_cons_of_mem _ hline, hmem⟩

end Text

end LicenseStamp

import LicenseStamp.Proofs.Text.LineEnds
import LicenseStamp.Proofs.Text.Lines

/-! # Lines put together again

A text without carriage returns is its lines with a line feed between two neighbours, and perhaps
one more behind the last line. Lines that are each ended by a line feed are the lines of the text
they make.
-/

namespace LicenseStamp.Text

variable {text line : Text} {ls first second : List Text} {c : Char}

/-- Lines, each ended by a line feed. -/
def ended (ls : List Text) : Text := ls.flatMap (· ++ ['\n'])

@[simp]
theorem ended_nil : ended [] = [] := rfl

@[simp]
theorem ended_cons (line : Text) (ls : List Text) :
    ended (line :: ls) = line ++ '\n' :: ended ls := by
  simp [ended]

theorem ended_ne_nil (hne : ls ≠ []) : ended ls ≠ [] := by
  obtain ⟨line, rest, rfl⟩ := List.exists_cons_of_ne_nil hne
  simp

theorem unlines_cons (line : Text) (hne : ls ≠ []) :
    unlines (line :: ls) = line ++ '\n' :: unlines ls := by
  obtain ⟨next, rest, rfl⟩ := List.exists_cons_of_ne_nil hne
  simp [unlines, join]

/-- The lines before the last ones are ended ones. -/
theorem unlines_append (hne : second ≠ []) :
    unlines (first ++ second) = ended first ++ unlines second := by
  induction first with
  | nil => rfl
  | cons line rest ih =>
      rw [List.cons_append, unlines_cons line (List.append_ne_nil_of_right_ne_nil rest hne), ih,
        ended_cons, List.append_assoc, List.cons_append]

theorem lines_ne_nil (hne : text ≠ []) : lines text ≠ [] := by
  fun_cases lines text with
  | case1 => exact absurd rfl hne
  | case2 rest => exact List.cons_ne_nil _ _
  | case3 rest => exact List.cons_ne_nil _ _
  | case4 c rest => cases lines rest <;> exact List.cons_ne_nil _ _

theorem unlines_consLine (c : Char) (ls : List Text) : unlines (consLine c ls) = c :: unlines ls := by
  cases ls with
  | nil => rfl
  | cons line rest => cases rest <;> rfl

/-- A text without carriage returns is made of its lines; the last one may be ended too. -/
theorem eq_unlines_lines (h : '\r' ∉ text) :
    text = unlines (lines text) ∨ text = unlines (lines text) ++ ['\n'] := by
  induction text with
  | nil => exact .inl rfl
  | cons c rest ih =>
      obtain ⟨hc, hrest⟩ := not_or.1 (mt List.mem_cons.2 h)
      by_cases hfeed : c = '\n'
      · subst hfeed
        by_cases hnil : rest = []
        · subst hnil
          exact .inr rfl
        · have hlines : unlines (lines ('\n' :: rest)) = '\n' :: unlines (lines rest) :=
            unlines_cons [] (lines_ne_nil hnil)
          rw [hlines]
          exact (ih hrest).imp (congrArg _) (congrArg _)
      · rw [lines_cons_of_ne hfeed (Ne.symm hc), unlines_consLine]
        exact (ih hrest).imp (congrArg _) (congrArg _)

theorem IsLine.tail (h : IsLine (c :: line)) : IsLine line :=
  ⟨mt (List.mem_cons_of_mem c) h.1, mt (List.mem_cons_of_mem c) h.2⟩

theorem IsLine.head_ne (h : IsLine (c :: line)) : c ≠ '\n' ∧ c ≠ '\r' := by
  refine ⟨?_, ?_⟩ <;> rintro rfl
  · exact h.2 List.mem_cons_self
  · exact h.1 List.mem_cons_self

/-- An ended line is the first line of a text that starts with it. -/
theorem lines_append_feed_cons (h : IsLine line) (rest : Text) :
    lines (line ++ '\n' :: rest) = line :: lines rest := by
  induction line with
  | nil => rfl
  | cons c line ih =>
      rw [List.cons_append, lines_cons_of_ne h.head_ne.1 h.head_ne.2, ih h.tail]
      rfl

theorem lines_ended_append (h : ∀ line ∈ ls, IsLine line) (rest : Text) :
    lines (ended ls ++ rest) = ls ++ lines rest := by
  induction ls with
  | nil => rfl
  | cons line more ih =>
      obtain ⟨hline, hmore⟩ := List.forall_mem_cons.1 h
      rw [ended_cons, List.append_assoc, List.cons_append, lines_append_feed_cons hline, ih hmore,
        List.cons_append]

theorem lines_concat_feed {front : Text} {c : Char} (hreturn : '\r' ∉ front ++ [c]) (hc : c ≠ '\n') :
    lines (front ++ [c, '\n']) = lines (front ++ [c]) := by
  induction front with
  | nil =>
      have hne : '\r' ≠ c := mt List.mem_singleton.2 hreturn
      rw [List.nil_append, List.nil_append, lines_cons_of_ne hc hne.symm, lines_cons_of_ne hc hne.symm]
      rfl
  | cons d front ih =>
      obtain ⟨hd, hfront⟩ := not_or.1 (mt List.mem_cons.2 hreturn)
      rw [List.cons_append, List.cons_append]
      by_cases hfeed : d = '\n'
      · subst hfeed
        exact congrArg ([] :: ·) (ih hfront)
      · rw [lines_cons_of_ne hfeed (Ne.symm hd), lines_cons_of_ne hfeed (Ne.symm hd), ih hfront]

theorem lines_of_isLine (h : IsLine line) (hne : line ≠ []) : lines line = [line] := by
  induction line with
  | nil => exact absurd rfl hne
  | cons c line ih =>
      rw [lines_cons_of_ne h.head_ne.1 h.head_ne.2]
      cases line with
      | nil => rfl
      | cons d rest =>
          rw [ih h.tail (List.cons_ne_nil _ _)]
          rfl

/-- Where ended lines are cut at their line feeds, nothing is left behind the last one. -/
theorem splitOn_ended (h : ∀ line ∈ ls, '\n' ∉ line) :
    (ended ls).splitOn '\n' = ls ++ [[]] := by
  induction ls with
  | nil => rfl
  | cons line rest ih =>
      obtain ⟨hline, hrest⟩ := List.forall_mem_cons.1 h
      rw [ended_cons, List.splitOn_append_cons_self, List.splitOn_eq_singleton hline, ih hrest]
      rfl

theorem isLine_of_mem_lines (h : '\r' ∉ text) (hline : line ∈ lines text) : IsLine line := by
  refine ⟨fun hmem => h (mem_of_mem_lines hline hmem), ?_⟩
  induction text generalizing line with
  | nil => cases hline
  | cons c rest ih =>
      obtain ⟨hc, hrest⟩ := not_or.1 (mt List.mem_cons.2 h)
      by_cases hfeed : c = '\n'
      · subst hfeed
        rcases List.mem_cons.1 hline with rfl | hline
        · exact List.not_mem_nil
        · exact ih hrest hline
      · rw [lines_cons_of_ne hfeed (Ne.symm hc)] at hline
        intro hmem
        rcases mem_of_mem_consLine hline hmem with rfl | ⟨other, hother, hmem⟩
        · exact hfeed rfl
        · exact ih hrest hother hmem

end LicenseStamp.Text

import LicenseStamp.Text.Basic

/-! # Line endings in one form

Content is read with every line ending written as a line feed: first the pairs of
carriage return and line feed, then the carriage returns that stand alone.
-/

namespace LicenseStamp.Text

/-- Every pair of carriage return and line feed becomes a line feed. -/
def joinReturnPairs : Text → Text
  | [] => []
  | '\r' :: '\n' :: rest => '\n' :: joinReturnPairs rest
  | c :: rest => c :: joinReturnPairs rest

/-- Every carriage return becomes a line feed. -/
def replaceReturns (text : Text) : Text :=
  text.map fun c => if c = '\r' then '\n' else c

/-- The text with line feeds as its only line endings. -/
def unifyNewlines (text : Text) : Text := replaceReturns (joinReturnPairs text)

theorem return_not_mem_unifyNewlines (text : Text) : '\r' ∉ unifyNewlines text := by
  simp only [unifyNewlines, replaceReturns, List.mem_map, not_exists, not_and]
  intro c _
  split <;> simp_all

theorem joinReturnPairs_eq_self {text : Text} (h : '\r' ∉ text) : joinReturnPairs text = text := by
  fun_induction joinReturnPairs text with
  | case1 => rfl
  | case2 => simp at h
  | case3 c rest _ ih => rw [ih (by simp_all)]

theorem replaceReturns_eq_self {text : Text} (h : '\r' ∉ text) : replaceReturns text = text := by
  have hid : ∀ c ∈ text, (if c = '\r' then '\n' else c) = c := by
    intro c hc
    rw [if_neg]
    rintro rfl
    exact h hc
  simpa [replaceReturns] using (List.map_congr_left hid).trans (List.map_id text)

/-- Text without carriage returns is in its one form already. -/
theorem unifyNewlines_eq_self {text : Text} (h : '\r' ∉ text) : unifyNewlines text = text := by
  rw [unifyNewlines, joinReturnPairs_eq_self h, replaceReturns_eq_self h]

end LicenseStamp.Text

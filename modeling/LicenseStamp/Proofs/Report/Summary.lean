import LicenseStamp.Report.Summary
import Mathlib.Data.List.Count

/-! # What a summary counts

The counters of a summary depend on the actions of the reports alone, and not on their order.
-/

namespace LicenseStamp.Summary

variable {reports first second : List FileReport} {dryRun : Bool}

theorem length_changed (reports : List FileReport) (dryRun : Bool) :
    (ofReports reports dryRun).changed.length =
      reports.countP fun report => report.action.isChange := by
  simp only [ofReports, Path.sort, List.length_mergeSort, List.length_map, List.countP_eq_length_filter]

/-- A run has changes if and only if one of its reports tells of a change. -/
theorem hasChanges_iff :
    (ofReports reports dryRun).hasChanges = true ↔
      ∃ report ∈ reports, report.action.isChange = true := by
  rw [← List.countP_pos_iff, ← length_changed reports dryRun, List.length_pos_iff, hasChanges]
  simp

theorem count_eq_of_perm (h : (first.map FileReport.action).Perm (second.map FileReport.action))
    (action : Action) : count action first = count action second := by
  have hcount := h.countP_eq fun other => other = action
  rwa [List.countP_map, List.countP_map] at hcount

/-- Reports of the same actions, in whatever order, are counted alike. -/
theorem counters_of_perm (h : (first.map FileReport.action).Perm (second.map FileReport.action))
    (dryRun : Bool) :
    let one := ofReports first dryRun
    let two := ofReports second dryRun
    one.seen = two.seen ∧ one.candidates = two.candidates ∧
      one.changed.length = two.changed.length ∧ one.replaced = two.replaced ∧
      one.compliant = two.compliant ∧ one.skipped = two.skipped := by
  intro one two
  have hlength : first.length = second.length := by simpa using h.length_eq
  have hskipped := count_eq_of_perm h .skipped
  have hchanged : one.changed.length = two.changed.length := by
    have hcount := h.countP_eq Action.isChange
    rw [List.countP_map, List.countP_map] at hcount
    rw [length_changed, length_changed]
    exact hcount
  refine ⟨hlength, ?_, hchanged, count_eq_of_perm h .replaced, count_eq_of_perm h .unchanged,
    hskipped⟩
  change first.length - count .skipped first = second.length - count .skipped second
  rw [hlength, hskipped]

end LicenseStamp.Summary

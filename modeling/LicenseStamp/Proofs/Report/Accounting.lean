import LicenseStamp.Proofs.Path.Order
import LicenseStamp.Proofs.Report.Summary

/-! # A summary accounts for every report

Each report is counted once: as a change, as compliant or as skipped. The changed files of a summary
are those of the changes, in path order, and the order of the reports shows only where two of
them have paths with the same components.
-/

namespace LicenseStamp

theorem Action.isChange_iff {action : Action} :
    action.isChange = true ↔ action = .added ∨ action = .replaced := by
  cases action <;> simp [isChange]

namespace Summary

variable {reports others : List FileReport}

/-- Every report tells of a change, of a compliant file or of a skipped one. -/
theorem length_eq_counts (reports : List FileReport) :
    reports.length = reports.countP (fun report => report.action.isChange) +
      count .unchanged reports + count .skipped reports := by
  induction reports with
  | nil => rfl
  | cons report rest ih =>
      have hone : (if report.action.isChange = true then 1 else 0) +
          (if decide (report.action = .unchanged) = true then 1 else 0) +
          (if decide (report.action = .skipped) = true then 1 else 0) = 1 := by
        cases report.action <;> rfl
      simp only [count, List.length_cons, List.countP_cons] at ih ⊢
      omega

theorem count_replaced_le (reports : List FileReport) :
    count .replaced reports ≤ reports.countP fun report => report.action.isChange := by
  apply List.countP_mono_left
  intro report _ hreplaced
  exact Action.isChange_iff.2 (.inr (by simpa using hreplaced))

/-- The paths of the reports that tell of a change. -/
def changes (reports : List FileReport) : List Path :=
  (reports.filter fun report => report.action = .added ∨ report.action = .replaced).map
    FileReport.path

theorem changed_ofReports (reports : List FileReport) (dryRun : Bool) :
    (ofReports reports dryRun).changed = Path.sort (changes reports) := by
  have hsame : (fun report : FileReport => report.action.isChange) =
      fun report => decide (report.action = .added ∨ report.action = .replaced) :=
    funext fun report => by rw [Bool.eq_iff_iff, Action.isChange_iff, decide_eq_true_iff]
  rw [ofReports, changes, hsame]

/-- The counters of a summary add up to the number of its reports. The changed files are those of the
    reports that tell of a change; they come in path order, and those with the same components in
    the order of the reports. Reports in another order have the same counters, and the same
    components at each position of the changed files. -/
theorem ofReports_accounts (reports : List FileReport) (dryRun : Bool) :
    let summary := ofReports reports dryRun
    summary.seen = reports.length ∧
      summary.seen = summary.candidates + summary.skipped ∧
      summary.candidates = summary.changed.length + summary.compliant ∧
      summary.replaced ≤ summary.changed.length ∧
      (summary.hasChanges = true ↔
        ∃ report ∈ reports, report.action = .added ∨ report.action = .replaced) ∧
      summary.changed.Perm (changes reports) ∧
      (summary.changed.Pairwise fun first second =>
        first.Precedes second ∨ first.components = second.components) ∧
      (∀ components, summary.changed.filter (fun path => path.components = components) =
        (changes reports).filter fun path => path.components = components) ∧
      ∀ others : List FileReport, reports.Perm others →
        let other := ofReports others dryRun
        other.seen = summary.seen ∧ other.candidates = summary.candidates ∧
          other.replaced = summary.replaced ∧ other.compliant = summary.compliant ∧
          other.skipped = summary.skipped ∧
          other.changed.map Path.components = summary.changed.map Path.components := by
  intro summary
  have hcounts := length_eq_counts reports
  have hlength : summary.changed.length = _ := length_changed reports dryRun
  have hchanged : summary.changed = Path.sort (changes reports) := changed_ofReports reports dryRun
  have hcandidates : summary.candidates = reports.length - count .skipped reports := rfl
  have hskipped : summary.skipped = count .skipped reports := rfl
  have hcompliant : summary.compliant = count .unchanged reports := rfl
  have hreplaced : summary.replaced = count .replaced reports := rfl
  refine ⟨rfl, ?_, ?_, ?_, ?_, ?_, ?_, ?_, ?_⟩
  · change reports.length = _
    omega
  · omega
  · rw [hreplaced, hlength]
    exact count_replaced_le reports
  · simp only [summary, hasChanges_iff, Action.isChange_iff]
  · rw [hchanged]
    exact List.mergeSort_perm _ _
  · rw [hchanged]
    exact (Path.pairwise_sort _).imp Path.le_iff.1
  · intro components
    rw [hchanged, Path.filter_sort]
  · intro others hperm other
    obtain ⟨hseen, hcandidates, -, hreplaced, hcompliant, hskipped⟩ :=
      counters_of_perm (hperm.symm.map FileReport.action) dryRun
    refine ⟨hseen, hcandidates, hreplaced, hcompliant, hskipped, ?_⟩
    have hother : other.changed = Path.sort (changes others) := changed_ofReports others dryRun
    rw [hchanged, hother]
    exact Path.map_components_sort_of_perm ((hperm.symm.filter _).map _)

/-- Two spellings of one path keep the order of their reports, so that the changed files of the two
    orders differ, but not in components. -/
theorem ofReports_accounts_respelled :
    let spelled : FileReport := ⟨.ofText ['a', '/', 'b'], some .code, .replaced, none⟩
    let padded : FileReport := ⟨.ofText ['a', '/', '/', 'b'], some .code, .added, none⟩
    let components := spelled.path.components
    let one := (ofReports [spelled, padded] false).changed
    let two := (ofReports [padded, spelled] false).changed
    [spelled, padded].Perm [padded, spelled] ∧
      one.filter (fun path => path.components = components) = [spelled.path, padded.path] ∧
      two.filter (fun path => path.components = components) = [padded.path, spelled.path] ∧
      two.map Path.components = one.map Path.components := by
  intro spelled padded components one two
  have hperm : [spelled, padded].Perm [padded, spelled] := .swap padded spelled []
  obtain ⟨-, -, -, -, -, -, -, hone, hothers⟩ := ofReports_accounts [spelled, padded] false
  obtain ⟨-, -, -, -, -, -, -, htwo, -⟩ := ofReports_accounts [padded, spelled] false
  exact ⟨hperm, (hone components).trans rfl,
    (htwo components).trans rfl, (hothers _ hperm).2.2.2.2.2⟩

end Summary

end LicenseStamp

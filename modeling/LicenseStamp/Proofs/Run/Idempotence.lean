import LicenseStamp.Proofs.Run.Success

/-! # A second run changes nothing

A path is settled when there is nothing left to do about it. A successful run settles all
paths it processes, and a run over settled paths succeeds and leaves the disk as it is.
-/

namespace LicenseStamp

namespace Summary

/-- Without a change each report is about a file that was skipped or carried the header. -/
theorem count_unchanged_add_skipped {reports : List FileReport}
    (h : ∀ report ∈ reports, report.action.isChange = false) :
    count .unchanged reports + count .skipped reports = reports.length := by
  induction reports with
  | nil => rfl
  | cons report rest ih =>
      have hrest := ih fun other hother => h other (List.mem_cons_of_mem _ hother)
      have hfirst := h report List.mem_cons_self
      simp only [count, List.countP_cons, List.length_cons] at hrest ⊢
      cases haction : report.action with
      | added | replaced =>
          rw [haction] at hfirst
          cases hfirst
      | unchanged | skipped =>
          simp only [reduceCtorEq, decide_true, decide_false, if_true, Bool.false_eq_true, if_false]
          omega

theorem changed_eq_nil {reports : List FileReport} (dryRun : Bool)
    (h : ∀ report ∈ reports, report.action.isChange = false) :
    (ofReports reports dryRun).changed = [] := by
  have hnone : reports.filter (fun report => report.action.isChange) = [] := by
    rw [List.filter_eq_nil_iff]
    intro report hreport
    rw [h report hreport]
    exact Bool.false_ne_true
  simp only [ofReports, hnone, List.map_nil, Path.sort, List.mergeSort_nil]

end Summary

namespace Job

variable {job : Job} {disk after : Disk} {path : Path} {files : List Path}
  {reports : List FileReport} {failure : Option Failure}

/-- A path about which there is nothing to do: it is no candidate, or leads to a file with the
    header. -/
def Settled (job : Job) (disk : Disk) (path : Path) : Prop :=
  job.Candidate path → ∃ location content, disk.find path = .ok location ∧
    disk.content? location = some content ∧ job.Accepts content

theorem Processed.of_settled (h : job.Processed disk path after reports failure)
    (hsettled : job.Settled disk path) :
    after = disk ∧ failure = none ∧ ∀ report ∈ reports, report.action.isChange = false := by
  have accepted : ∀ {style}, Eligibility.classify job.root path = .candidate style →
      ∃ text, disk.readText path = .ok text ∧ job.licensed text = true := by
    intro style hclass
    obtain ⟨location, content, hfind, hcontent, text, hread, hlicensed⟩ := hsettled ⟨style, hclass⟩
    exact ⟨text, (Disk.readText_of_content? hfind hcontent).trans hread, hlicensed⟩
  have contradictory : ∀ {style text}, Eligibility.classify job.root path = .candidate style →
      disk.readText path = .ok text → job.licensed text ≠ false := by
    intro style text hclass hread hunlicensed
    obtain ⟨other, hother, hlicensed⟩ := accepted hclass
    obtain rfl := Except.ok.inj (hread.symm.trans hother)
    rw [hlicensed] at hunlicensed
    cases hunlicensed
  cases h with
  | unread hclass hread =>
      obtain ⟨text, htext, -⟩ := accepted hclass
      rw [htext] at hread
      cases hread
  | unwritten hclass hread hlicensed _ _ => exact absurd hlicensed (contradictory hclass hread)
  | checked hclass hread hlicensed _ => exact absurd hlicensed (contradictory hclass hread)
  | forgotten hclass _ _ hread hlicensed _ => exact absurd hlicensed (contradictory hclass hread)
  | stamped hclass hfind hcontent hread hlicensed _ _ =>
      exact absurd hlicensed
        (contradictory hclass ((Disk.readText_of_content? hfind hcontent).trans hread))
  | skipped | kept =>
      refine ⟨rfl, rfl, fun report hreport => ?_⟩
      rw [List.mem_singleton.1 hreport]
      rfl

/-- A run over settled paths succeeds and changes nothing. -/
theorem Runs.of_settled (h : job.Runs disk files after reports failure)
    (hsettled : ∀ path ∈ files, job.Settled disk path) :
    after = disk ∧ failure = none ∧ ∀ report ∈ reports, report.action.isChange = false := by
  induction h with
  | done => exact ⟨rfl, rfl, fun _ => nofun⟩
  | stopped hstep =>
      obtain ⟨-, hfailure, -⟩ := hstep.of_settled (hsettled _ List.mem_cons_self)
      cases hfailure
  | next hstep _ ih =>
      obtain ⟨rfl, -, hfirst⟩ := hstep.of_settled (hsettled _ List.mem_cons_self)
      obtain ⟨hafter, hfailure, hlater⟩ := ih fun path hpath =>
        hsettled path (List.mem_cons_of_mem _ hpath)
      refine ⟨hafter, hfailure, fun report hreport => ?_⟩
      rcases List.mem_cons.1 hreport with rfl | hreport
      · exact hfirst _ List.mem_cons_self
      · exact hlater report hreport

/-- A run to the end settles every path that leads to a file if it leads anywhere. -/
theorem Runs.settled (h : job.Runs disk files after reports none) (hstamps : job.AcceptsStamps)
    (hcheck : job.check = false)
    (hfiles : ∀ path ∈ files, disk.LeadsToFile path) :
    ∀ path ∈ files, job.Settled after path := by
  intro path hpath hcand
  have hprocessed : path ∈ files.take reports.length := by
    rw [h.length_of_success, List.take_length]
    exact hpath
  obtain ⟨location, hfind⟩ := h.exists_find hprocessed hcand
  obtain ⟨content, hcontent⟩ := hfiles path hpath location hfind
  obtain ⟨new, hnew, haccepts⟩ := h.exists_accepts hstamps hcheck hprocessed hcand hfind hcontent
  exact ⟨location, new, (Disk.find_of_shape h.shape_eq path).trans hfind, hnew, haccepts⟩

/-- Reports about the same paths skip the same number of them. -/
theorem count_skipped_of_reported {first second : List FileReport}
    (hfirst : List.Forall₂ job.Reported files first)
    (hsecond : List.Forall₂ job.Reported files second) :
    Summary.count .skipped first = Summary.count .skipped second := by
  induction hfirst generalizing second with
  | nil =>
      cases hsecond
      rfl
  | @cons path report files first hreported hfirst ih =>
      cases hsecond with
      | @cons _ other _ second hother hsecond =>
          have hskipped : report.action = .skipped ↔ other.action = .skipped :=
            not_iff_not.1 (hreported.2.trans hother.2.symm)
          have hrest := ih hsecond
          simp only [Summary.count, List.countP_cons, hskipped] at hrest ⊢
          rw [hrest]

/-- A successful run for the license marker settles all that it collects, so that the same run
    succeeds again, changes no byte and reports the same paths without a change: it finds the
    marker in all former candidates. -/
theorem run_run {root : Path} {disk : Disk} (hwf : disk.top.isWellFormed = true)
    (hsuccess : ((Job.standard root false).run disk).failure = none) :
    let job := Job.standard root false
    let first := job.run disk
    let second := job.run first.disk
    (∃ files, disk.collect root = .ok files ∧ ∀ path ∈ files, job.Settled first.disk path) ∧
      second.failure = none ∧ second.disk = first.disk ∧
      (job.summary second).changed = [] ∧
      second.reports.map FileReport.path = first.reports.map FileReport.path ∧
      (job.summary second).compliant = (job.summary first).candidates := by
  intro job first second
  obtain ⟨files, hcollect⟩ := exists_collect_of_success hsuccess
  have hfirst := run_of_collect hcollect
  rw [hsuccess] at hfirst
  have hagain : first.disk.collect job.root = .ok files :=
    (Disk.collect_of_shape hfirst.shape_eq _).trans hcollect
  have hsecond := run_of_collect hagain
  have hsettled : ∀ path ∈ files, job.Settled first.disk path := by
    refine hfirst.settled (acceptsStamps_standard root false) rfl fun path hpath => ?_
    exact Disk.leadsToFile_of_mem_collect hwf hcollect hpath
  obtain ⟨hdisk, hfailure, hnochange⟩ := hsecond.of_settled hsettled
  rw [hfailure] at hsecond
  have hreported := hfirst.reported
  have hreported' := hsecond.reported
  rw [hfirst.length_of_success, List.take_length] at hreported
  rw [hsecond.length_of_success, List.take_length] at hreported'
  refine ⟨⟨files, hcollect, hsettled⟩, hfailure, hdisk, Summary.changed_eq_nil _ hnochange, ?_, ?_⟩
  · rw [map_path_of_reported hreported, map_path_of_reported hreported']
  · have hlength : second.reports.length = first.reports.length := by
      rw [hfirst.length_of_success, hsecond.length_of_success]
    have hskipped : Summary.count .skipped first.reports = Summary.count .skipped second.reports :=
      count_skipped_of_reported hreported hreported'
    have hcounts : Summary.count .unchanged second.reports +
        Summary.count .skipped second.reports = second.reports.length :=
      Summary.count_unchanged_add_skipped hnochange
    change Summary.count .unchanged second.reports =
      first.reports.length - Summary.count .skipped first.reports
    omega

open Disk in
theorem run_run_linkedSite :
    let job := Job.standard linkedSiteRoot false
    let first := job.run linkedSite
    linkedSite.top.isWellFormed = true ∧ first.failure = none ∧
      (job.run first.disk).failure = none ∧ (job.run first.disk).disk = first.disk ∧
      (job.summary (job.run first.disk)).compliant = (job.summary first).candidates := by
  intro job first
  obtain ⟨-, hfailure, hdisk, -, -, hcounts⟩ :=
    run_run isWellFormed_linkedSite (run_linkedSite_succeeds false)
  exact ⟨isWellFormed_linkedSite, run_linkedSite_succeeds false, hfailure, hdisk, hcounts⟩

end Job

end LicenseStamp

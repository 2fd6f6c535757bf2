import LicenseStamp.Proofs.Report.Summary
import LicenseStamp.Proofs.Run.Decision
import LicenseStamp.Proofs.Run.Idempotence
import LicenseStamp.Proofs.Run.Reports

/-! # A check foretells the run

A run that only checks meets every file as it was before, and the real run meets the files that
it stamped itself. Otherwise the two decide alike, so that they fail alike and report the same
paths, styles and reasons. They differ about a path only if an earlier path leads to the same
file: the check announces the change twice, and the real run makes it once.
-/

namespace LicenseStamp

namespace Disk

/-- The running program is no text, if it is a file of the tree: it is machine code. -/
def ProgramIsNoText (disk : Disk) : Prop :=
  ∀ location content, disk.running = some location → disk.content? location = some content →
    content.readText = .error .notText

end Disk

namespace Job

variable {job : Job} {disk current after final : Disk} {path : Path} {files : List Path}
  {planned done : FileReport} {plans reports : List FileReport} {failure failure' : Option Failure}
  {cause : Failure}

/-- The job that only checks what another one would do. -/
def rehearsal (job : Job) : Job := { job with check := true }

theorem AcceptsStamps.rehearsal (h : job.AcceptsStamps) : job.rehearsal.AcceptsStamps := h

theorem Ahead.programIsNoText (h : job.Ahead disk current) (hprogram : disk.ProgramIsNoText) :
    current.ProgramIsNoText := by
  intro location content hrunning hcontent
  have hbefore := (Disk.running_of_shape h.shape_eq).symm.trans hrunning
  rcases h.content location with hsame | ⟨⟨old, hold, text, hread, -⟩, -⟩
  · exact hprogram location content hbefore (hsame ▸ hcontent)
  · rw [hprogram location old hbefore hold] at hread
    cases hread

/-- Where the running program is no text a step fails only because its file cannot be read. -/
theorem Processed.cause_eq (h : job.Processed disk path after reports (some cause))
    (hfile : disk.LeadsToFile path) (hprogram : disk.ProgramIsNoText) :
    ∃ error, job.decide disk path = .error error ∧ cause = .read path error := by
  rcases h.cause_cases hfile with hread | ⟨-, location, content, text, hrunning, hcontent, htext⟩
  · exact hread
  · rw [hprogram location content hrunning hcontent] at htext
    cases htext

namespace Runs

/-- A check fails if and only if the real run does, for the same cause. The real run may be
    ahead by what it stamped before. -/
theorem failure_eq_of_ahead (dry : job.rehearsal.Runs disk files after plans failure)
    (real : job.Runs current files final reports failure') (hahead : job.Ahead disk current)
    (hstamps : job.AcceptsStamps) (hprogram : disk.ProgramIsNoText)
    (hfiles : ∀ path ∈ files, disk.LeadsToFile path) : failure = failure' := by
  have hprogram' := hahead.programIsNoText hprogram
  induction dry generalizing current final reports failure' with
  | done =>
      cases real
      rfl
  | stopped hstep =>
      have hfile := hfiles _ List.mem_cons_self
      obtain ⟨error, herror, rfl⟩ := hstep.cause_eq hfile hprogram
      have hdecide := (hahead.decide_error_iff hfile).2 herror
      cases real with
      | stopped hstep' =>
          obtain ⟨error', herror', rfl⟩ :=
            hstep'.cause_eq (hfile.of_shape hahead.shape_eq) hprogram'
          obtain rfl := Except.error.inj (hdecide.symm.trans herror')
          rfl
      | next hstep' _ =>
          obtain ⟨decision, hdecision, -⟩ := hstep'.exists_decision
          rw [hdecision] at hdecide
          cases hdecide
  -- the check goes on from the same disk, and the real run from one further ahead
  | next hstep onward ih =>
      have hfile := hfiles _ List.mem_cons_self
      obtain rfl := eq_of_check (.next hstep .done) rfl
      obtain ⟨decision, hdecision, -⟩ := hstep.exists_decision
      cases real with
      | stopped hstep' =>
          obtain ⟨error, herror, rfl⟩ :=
            hstep'.cause_eq (hfile.of_shape hahead.shape_eq) hprogram'
          have hdecide : job.rehearsal.decide _ _ = .error error :=
            (hahead.decide_error_iff hfile).1 herror
          rw [hdecision] at hdecide
          cases hdecide
      | next hstep' onward' =>
          have hnext := hahead.trans (hstep'.ahead hstamps)
          exact ih onward' hnext hprogram (hstep.leadsToFile_rest hfiles)
            (hnext.programIsNoText hprogram)

/-- What a check and the real run report about one path. -/
theorem reports_of_rehearsal (dry : job.rehearsal.Runs disk files after plans failure)
    (real : job.Runs disk files final reports failure') (hstamps : job.AcceptsStamps)
    (hcheck : job.check = false) (hfiles : ∀ path ∈ files, disk.LeadsToFile path) {i : Nat}
    (hpath : files[i]? = some path) (hplanned : plans[i]? = some planned)
    (hdone : reports[i]? = some done) :
    (planned = done ∨ planned.action.isChange = true ∧ done = { planned with action := .unchanged }) ∧
      (planned.action ≠ done.action ↔ planned.action.isChange = true ∧
        ∃ earlier ∈ files.take i, job.Candidate earlier ∧
          ∃ location, disk.find earlier = .ok location ∧ disk.find path = .ok location) := by
  have hfile := hfiles path (List.mem_of_getElem? hpath)
  obtain ⟨unchanged, decision, hdry, -, hdecision, rfl⟩ :=
    dry.exists_decision hstamps.rehearsal hpath hplanned
  obtain rfl := hdry.eq_of_check rfl
  obtain ⟨middle, decision', hruns, hahead, hdecision', rfl⟩ :=
    real.exists_decision hstamps hpath hdone
  have hbefore : job.decide unchanged path = .ok decision := hdecision
  rcases hahead.decide_cases hfile with hsame | ⟨style, text, location, hfind, hne, hstamp, hkeep⟩
  · obtain rfl := Except.ok.inj (hdecision'.symm.trans (hsame.trans hbefore))
    refine ⟨.inl rfl, fun hdiffer => absurd rfl hdiffer, ?_⟩
    rintro ⟨hchange, earlier, hearlier, hcand, location, hfind, hpathfind⟩
    -- the earlier path left the header in the file, so the real run would keep it
    obtain ⟨style, text, stamped, rfl⟩ := exists_stamp_of_isChange hchange
    obtain ⟨hclass, -⟩ := misses_of_decide hfile hbefore
    obtain ⟨goal, content, hgoal, hcontent, haccepts⟩ := hruns.settled hstamps hcheck
      (fun other hother => hfiles other (List.mem_of_mem_take hother)) earlier hearlier hcand
    rw [Disk.find_of_shape hahead.shape_eq, hfind] at hgoal
    obtain rfl := Except.ok.inj hgoal
    have hkeep := decide_of_accepts hclass
      ((Disk.find_of_shape hahead.shape_eq path).trans hpathfind) hcontent haccepts
    rw [hdecision'] at hkeep
    cases hkeep
  · obtain rfl := Except.ok.inj (hbefore.symm.trans hstamp)
    obtain rfl := Except.ok.inj (hdecision'.symm.trans hkeep)
    have hchange := isChange_stamp (style.stamp text)
    refine ⟨.inr ⟨hchange, rfl⟩, fun _ => ⟨hchange, ?_⟩, fun _ hsame => ?_⟩
    · obtain ⟨⟨earlier, hearlier, hcand, hfind'⟩, -, -⟩ := hruns.of_changed hne
      exact ⟨earlier, List.mem_of_mem_take hearlier, hcand, location, hfind', hfind⟩
    · have hkept : (Decision.report (path.relativeTo job.root) (.keep style)).action.isChange =
        true := hsame ▸ hchange
      cases hkept

theorem hasChanges_eq_of_rehearsal (dry : job.rehearsal.Runs disk files after plans none)
    (real : job.Runs disk files final reports none) (hstamps : job.AcceptsStamps)
    (hcheck : job.check = false) (hfiles : ∀ path ∈ files, disk.LeadsToFile path) :
    (Summary.ofReports plans true).hasChanges = (Summary.ofReports reports false).hasChanges := by
  rw [Bool.eq_iff_iff, Summary.hasChanges_iff, Summary.hasChanges_iff]
  have hlength : plans.length = files.length := dry.length_of_success
  have hlength' : reports.length = files.length := real.length_of_success
  constructor
  · rintro ⟨planned, hmem, hchange⟩
    obtain ⟨i, hi, rfl⟩ := List.mem_iff_getElem.1 hmem
    have hpath := List.getElem?_eq_getElem (hlength ▸ hi)
    obtain ⟨unchanged, decision, hdry, -, hdecision, hreport⟩ :=
      dry.exists_decision hstamps.rehearsal hpath (List.getElem?_eq_getElem hi)
    obtain rfl := hdry.eq_of_check rfl
    rw [hreport] at hchange
    obtain ⟨style, text, stamped, rfl⟩ := exists_stamp_of_isChange hchange
    -- what the check announces, the real run changes through one path or another
    obtain ⟨hclass, location, content, hfind, hcontent, hmisses⟩ :=
      misses_of_decide (hfiles _ (List.getElem_mem _)) hdecision
    have hchanged : final.content? location ≠ unchanged.content? location :=
      (real.changed_iff_of_success hstamps).2 ⟨⟨_, List.getElem_mem _, .of_classify hclass, hfind⟩,
        ⟨content, hcontent, hmisses⟩, hcheck⟩
    obtain ⟨path, report, hzip, hreported, -⟩ := real.exists_report hchanged
    exact ⟨report, (List.of_mem_zip hzip).2, hreported⟩
  · rintro ⟨done, hmem, hchange⟩
    obtain ⟨i, hi, rfl⟩ := List.mem_iff_getElem.1 hmem
    have hpath := List.getElem?_eq_getElem (hlength' ▸ hi)
    have hplan := List.getElem?_eq_getElem (hlength.symm ▸ hlength' ▸ hi : i < plans.length)
    obtain ⟨hsame | ⟨hplanned, -⟩, -⟩ := dry.reports_of_rehearsal real hstamps hcheck hfiles hpath
      hplan (List.getElem?_eq_getElem hi)
    · exact ⟨_, List.getElem_mem _, hsame ▸ hchange⟩
    · exact ⟨_, List.getElem_mem _, hplanned⟩

end Runs

/-- A check leaves the disk as it is and fails as the real run does. Where they succeed they
    report the same paths, styles and reasons in the same order, and agree on whether there is
    anything to change. Their actions differ exactly where the check tells of a change of a file
    that an earlier candidate leads to as well, and there the real run reports no change. -/
theorem check_foretells_run {root : Path} {disk : Disk} (hwf : disk.top.isWellFormed = true)
    (hprogram : disk.ProgramIsNoText) :
    let check := (Job.standard root true).run disk
    let real := (Job.standard root false).run disk
    check.disk = disk ∧ check.failure = real.failure ∧
      (real.failure = none →
        ((Job.standard root true).summary check).hasChanges =
          ((Job.standard root false).summary real).hasChanges ∧
        ∃ files, disk.collect root = .ok files ∧ check.reports.length = files.length ∧
          real.reports.length = files.length ∧
          ∀ i path planned done, files[i]? = some path → check.reports[i]? = some planned →
            real.reports[i]? = some done →
            planned.path = path.relativeTo root ∧ done.path = planned.path ∧
              done.style = planned.style ∧ done.reason = planned.reason ∧
              (planned.action ≠ done.action ↔ planned.action.isChange = true ∧
                ∃ earlier ∈ files.take i, (Job.standard root false).Candidate earlier ∧
                  ∃ location, disk.find earlier = .ok location ∧ disk.find path = .ok location) ∧
              (planned.action ≠ done.action → done.action = .unchanged)) := by
  intro check real
  cases hcollect : disk.collect root with
  | error cause =>
      obtain ⟨hdisk, hfailure⟩ := @run_of_error (Job.standard root true) _ _ hcollect
      have hfailure' := (@run_of_error (Job.standard root false) _ _ hcollect).2
      refine ⟨hdisk, hfailure.trans hfailure'.symm, fun hnone => ?_⟩
      rw [hfailure'] at hnone
      cases hnone
  | ok files =>
      have dry := @run_of_collect (Job.standard root false).rehearsal _ _ hcollect
      have real := @run_of_collect (Job.standard root false) _ _ hcollect
      have hstamps := acceptsStamps_standard root false
      have hfiles : ∀ path ∈ files, disk.LeadsToFile path := fun path hpath =>
        Disk.leadsToFile_of_mem_collect hwf hcollect hpath
      have hfailure := dry.failure_eq_of_ahead real (.refl _ disk) hstamps hprogram hfiles
      refine ⟨dry.eq_of_check rfl, hfailure, fun hnone => ?_⟩
      rw [hfailure, hnone] at dry
      rw [hnone] at real
      refine ⟨dry.hasChanges_eq_of_rehearsal real hstamps rfl hfiles, files, rfl,
        dry.length_of_success, real.length_of_success, ?_⟩
      intro i path planned done hpath hplanned hdone
      obtain ⟨hcases, hdiffer⟩ := dry.reports_of_rehearsal real hstamps rfl hfiles hpath hplanned hdone
      have hrelative : planned.path = path.relativeTo root := by
        obtain ⟨_, decision, -, -, -, rfl⟩ :=
          dry.exists_decision hstamps.rehearsal hpath hplanned
        rfl
      rcases hcases with rfl | ⟨-, rfl⟩
      · exact ⟨hrelative, rfl, rfl, rfl, hdiffer, fun hne => absurd rfl hne⟩
      · exact ⟨hrelative, rfl, rfl, rfl, hdiffer, fun _ => rfl⟩

open Disk in
/-- On the site with the link the check announces a change of the script twice. -/
theorem check_foretells_run_aliasedSite :
    let check := (Job.standard aliasedSiteRoot true).run (aliasedSite [])
    let real := (Job.standard aliasedSiteRoot false).run (aliasedSite [])
    (aliasedSite []).top.isWellFormed = true ∧ (aliasedSite []).ProgramIsNoText ∧
      real.failure = none ∧ check.failure = none ∧ check.disk = aliasedSite [] ∧
      check.reports.map FileReport.action = [.added, .added, .added] ∧
      real.reports.map FileReport.action = [.added, .unchanged, .added] := by
  intro check real
  have hprogram : (aliasedSite []).ProgramIsNoText := fun _ _ => nofun
  obtain ⟨-, hplans, -⟩ :=
    @run_eq_processFiles (Job.standard aliasedSiteRoot true) _ _ (collect_aliasedSite [])
  obtain ⟨-, hreports, -⟩ :=
    @run_eq_processFiles (Job.standard aliasedSiteRoot false) _ _ (collect_aliasedSite [])
  have hnone : real.failure = none := run_aliasedSite_succeeds false
  obtain ⟨hdisk, hfailure, -⟩ :=
    @check_foretells_run aliasedSiteRoot _ (isWellFormed_aliasedSite []) hprogram
  refine ⟨isWellFormed_aliasedSite [], hprogram, hnone, hfailure.trans hnone, hdisk, ?_, ?_⟩
  · rw [hplans]
    rfl
  · rw [hreports]
    decide +kernel

end Job

end LicenseStamp

import LicenseStamp.Proofs.Run.Success
import Mathlib.Data.Set.Function

/-! # Reports tell what a run changed

The paths that are reported as changed lead to the changed files, each to one of its own: when
several paths lead to one file, the first of them finds it without the header, and the others
find it stamped.
-/

namespace LicenseStamp

/-- The paths whose reports tell of a change. -/
def changedPaths (files : List Path) (reports : List FileReport) : Set Path :=
  {path | ∃ report, (path, report) ∈ files.zip reports ∧ report.action.isChange = true}

/-- The ends of the ways to the files whose bytes differ between two disks. -/
def changedFiles (before after : Disk) : Set (Except DiskError Location) :=
  {goal | ∃ location, goal = .ok location ∧ after.content? location ≠ before.content? location}

namespace Job

variable {job : Job} {disk middle after : Disk} {path other : Path} {location : Location}
  {files rest : List Path} {report later : FileReport} {reports : List FileReport}
  {failure : Option Failure}

/-- A report of a change tells that the file was stamped. -/
theorem Processed.exists_stamps (h : job.Processed disk path after [report] none)
    (hcheck : job.check = false) (hfile : disk.LeadsToFile path)
    (hchange : report.action.isChange = true) :
    ∃ location, job.Stamps disk path location after [report] := by
  cases h with
  | skipped | kept => cases hchange
  | checked _ _ _ hchecks =>
      rw [hcheck] at hchecks
      cases hchecks
  | forgotten _ hdevice hnode =>
      obtain ⟨content, hcontent⟩ := hfile _ hdevice
      rw [Disk.content?_eq_some_iff.1 hcontent] at hnode
      cases hnode
  | stamped hclass hfind hcontent hread hlicensed _ hidle =>
      exact ⟨_, .of_put hclass hfind hcontent hread hlicensed hcheck hidle⟩

/-- What changes after a step did not change in it. -/
theorem Processed.content?_eq_of_later_change (hstep : job.Processed disk path middle [report] none)
    (onward : job.Runs middle rest after reports failure) (hstamps : job.AcceptsStamps)
    (hchanged : after.content? location ≠ middle.content? location) :
    middle.content? location = disk.content? location := by
  by_contra hne
  obtain ⟨new, hnew, haccepts⟩ := (hstep.stamps_of_changed hne).exists_accepts hstamps
  exact hchanged ((onward.content?_of_accepts hnew haccepts).trans hnew.symm)

namespace Runs

/-- A path that is reported as changed leads to a file that differs in the end. -/
theorem exists_changed (h : job.Runs disk files after reports failure) (hstamps : job.AcceptsStamps)
    (hcheck : job.check = false) (hfiles : ∀ path ∈ files, disk.LeadsToFile path)
    (hreport : (path, report) ∈ files.zip reports) (hchange : report.action.isChange = true) :
    ∃ location, disk.find path = .ok location ∧
      after.content? location ≠ disk.content? location := by
  induction h with
  | done | stopped => simp at hreport
  | next hstep onward ih =>
      rw [List.zip_cons_cons] at hreport
      rcases List.mem_cons.1 hreport with heq | hlater
      · obtain ⟨rfl, rfl⟩ := Prod.mk.inj heq
        obtain ⟨location, hstamped⟩ :=
          hstep.exists_stamps hcheck (hfiles _ List.mem_cons_self) hchange
        obtain ⟨new, hnew, haccepts⟩ := hstamped.exists_accepts hstamps
        refine ⟨location, hstamped.find, ?_⟩
        rw [onward.content?_of_accepts hnew haccepts, ← hnew]
        exact hstamped.content?_ne hstamps
      · obtain ⟨location, hfind, hne⟩ := ih (hstep.leadsToFile_rest hfiles) hlater
        rw [Disk.find_of_shape hstep.shape_eq] at hfind
        rw [hstep.content?_eq_of_later_change onward hstamps hne] at hne
        exact ⟨location, hfind, hne⟩

/-- After the step that stamps a file no other path is reported as changing the file. -/
theorem ne_of_stamped (hstep : job.Processed disk path middle [report] none)
    (onward : job.Runs middle rest after reports failure) (hstamps : job.AcceptsStamps)
    (hcheck : job.check = false) (hfiles : ∀ file ∈ path :: rest, disk.LeadsToFile file)
    (hchange : report.action.isChange = true) (hlater : (other, later) ∈ rest.zip reports)
    (hother : later.action.isChange = true) : disk.find path ≠ disk.find other := by
  intro hsame
  obtain ⟨location, hstamped⟩ := hstep.exists_stamps hcheck (hfiles _ List.mem_cons_self) hchange
  obtain ⟨goal, hfind, hne⟩ :=
    onward.exists_changed hstamps hcheck (hstep.leadsToFile_rest hfiles) hlater hother
  rw [Disk.find_of_shape hstep.shape_eq, ← hsame, hstamped.find] at hfind
  obtain rfl := Except.ok.inj hfind
  exact hstamped.content?_ne hstamps (hstep.content?_eq_of_later_change onward hstamps hne)

theorem eq_of_same_file (h : job.Runs disk files after reports failure)
    (hstamps : job.AcceptsStamps) (hcheck : job.check = false)
    (hfiles : ∀ path ∈ files, disk.LeadsToFile path)
    (hreport : (path, report) ∈ files.zip reports) (hchange : report.action.isChange = true)
    (hlater : (other, later) ∈ files.zip reports) (hother : later.action.isChange = true)
    (hsame : disk.find path = disk.find other) : path = other := by
  induction h with
  | done | stopped => simp at hreport
  | next hstep onward ih =>
      rw [List.zip_cons_cons] at hreport hlater
      rcases List.mem_cons.1 hreport with heq | htail <;>
        rcases List.mem_cons.1 hlater with heq' | htail'
      · exact (Prod.mk.inj heq).1.trans (Prod.mk.inj heq').1.symm
      · obtain ⟨rfl, rfl⟩ := Prod.mk.inj heq
        exact absurd hsame (ne_of_stamped hstep onward hstamps hcheck hfiles hchange htail' hother)
      · obtain ⟨rfl, rfl⟩ := Prod.mk.inj heq'
        exact absurd hsame.symm
          (ne_of_stamped hstep onward hstamps hcheck hfiles hother htail hchange)
      · rw [← Disk.find_of_shape hstep.shape_eq, ← Disk.find_of_shape hstep.shape_eq] at hsame
        exact ih (hstep.leadsToFile_rest hfiles) htail htail' hsame

/-- Each file that differs in the end has a path that is reported as changed. -/
theorem exists_report (h : job.Runs disk files after reports failure)
    (hchanged : after.content? location ≠ disk.content? location) :
    ∃ path report, (path, report) ∈ files.zip reports ∧ report.action.isChange = true ∧
      disk.find path = .ok location := by
  induction h with
  | done | stopped => exact absurd rfl hchanged
  | @next disk middle after path rest report reports failure hstep onward ih =>
      rw [List.zip_cons_cons]
      by_cases hmiddle : middle.content? location = disk.content? location
      · obtain ⟨path, report, hreport, hchange, hfind⟩ := ih (hmiddle ▸ hchanged)
        rw [Disk.find_of_shape hstep.shape_eq] at hfind
        exact ⟨path, report, List.mem_cons_of_mem _ hreport, hchange, hfind⟩
      · have hstamps := hstep.stamps_of_changed hmiddle
        exact ⟨path, report, List.mem_cons_self, hstamps.reported _ List.mem_cons_self, hstamps.find⟩

/-- The paths reported as changed lead one-to-one to the files that differ. -/
theorem bijOn_changed (h : job.Runs disk files after reports failure) (hstamps : job.AcceptsStamps)
    (hcheck : job.check = false) (hfiles : ∀ path ∈ files, disk.LeadsToFile path) :
    Set.BijOn disk.find (changedPaths files reports) (changedFiles disk after) := by
  refine ⟨?_, ?_, ?_⟩
  · rintro path ⟨report, hreport, hchange⟩
    exact h.exists_changed hstamps hcheck hfiles hreport hchange
  · rintro path ⟨report, hreport, hchange⟩ other ⟨later, hlater, hother⟩ hsame
    exact h.eq_of_same_file hstamps hcheck hfiles hreport hchange hlater hother hsame
  · rintro goal ⟨location, rfl, hchanged⟩
    obtain ⟨path, report, hreport, hchange, hfind⟩ := h.exists_report hchanged
    exact ⟨path, ⟨report, hreport, hchange⟩, hfind⟩

end Runs

/-- After a successful run for the license marker each collected path has a report, in the order
    of the walk. The paths reported as changed lead one-to-one to the files whose bytes differ.
    These are the files without the marker that a collected candidate leads to; a file with the
    marker keeps its bytes, and the shape of the tree stays. -/
theorem run_reports_changes {root : Path} {disk : Disk} (hwf : disk.top.isWellFormed = true)
    (hsuccess : ((Job.standard root false).run disk).failure = none) :
    let done := (Job.standard root false).run disk
    done.disk.shape = disk.shape ∧
      (∀ location content, disk.content? location = some content → Bytes.IsMarked content →
        done.disk.content? location = some content) ∧
      ∃ files, disk.collect root = .ok files ∧ files.Nodup ∧
        done.reports.map FileReport.path = files.map (fun path => path.relativeTo root) ∧
        Set.BijOn disk.find (changedPaths files done.reports) (changedFiles disk done.disk) ∧
        ∀ location, done.disk.content? location ≠ disk.content? location ↔
          (∃ path ∈ files, (Job.standard root false).Candidate path ∧
            disk.find path = .ok location) ∧
          ∃ old, disk.content? location = some old ∧ (Job.standard root false).Misses old := by
  intro done
  obtain ⟨files, hcollect⟩ := exists_collect_of_success hsuccess
  have hruns := run_of_collect hcollect
  rw [hsuccess] at hruns
  have hreported := hruns.reported
  rw [hruns.length_of_success, List.take_length] at hreported
  refine ⟨hruns.shape_eq, ?_, files, hcollect, Disk.nodup_collect hwf hcollect,
    map_path_of_reported hreported, ?_, ?_⟩
  · intro location content hcontent hmarked
    exact hruns.content?_of_accepts hcontent hmarked
  · exact hruns.bijOn_changed (acceptsStamps_standard root false) rfl
      fun path hpath => Disk.leadsToFile_of_mem_collect hwf hcollect hpath
  · intro location
    rw [hruns.changed_iff (acceptsStamps_standard root false), hruns.length_of_success,
      List.take_length]
    exact and_congr_right fun _ => and_iff_left rfl

open Disk in
theorem run_reports_changes_linkedSite :
    let done := (Job.standard linkedSiteRoot false).run linkedSite
    linkedSite.top.isWellFormed = true ∧ done.failure = none ∧ done.reports.length = 2 ∧
      ∃ files, linkedSite.collect linkedSiteRoot = .ok files ∧
        Set.BijOn linkedSite.find (changedPaths files done.reports)
          (changedFiles linkedSite done.disk) := by
  intro done
  obtain ⟨-, -, files, hcollect, -, hpaths, hbij, -⟩ :=
    run_reports_changes isWellFormed_linkedSite (run_linkedSite_succeeds false)
  refine ⟨isWellFormed_linkedSite, run_linkedSite_succeeds false, ?_, files, hcollect, hbij⟩
  obtain rfl := Except.ok.inj (collect_linkedSite.symm.trans hcollect)
  have hlength := congrArg List.length hpaths
  rw [List.length_map, List.length_map] at hlength
  exact hlength

end Job

end LicenseStamp

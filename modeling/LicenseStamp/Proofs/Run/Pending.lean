import LicenseStamp.Proofs.Run.Decision

/-! # Pending changes

A check decides about every file as the disk stands, so that it tells of a change exactly if a
candidate is read without the header. Without such a candidate the real run has nothing to do.
-/

namespace LicenseStamp

namespace Job

variable {job : Job} {disk after : Disk} {path : Path} {decision : Decision} {files : List Path}
  {reports : List FileReport}

/-- A candidate that is read as a text without the header. -/
def Pending (job : Job) (disk : Disk) (path : Path) : Prop :=
  ∃ style text, Eligibility.classify job.root path = .candidate style ∧
    disk.readText path = .ok text ∧ job.licensed text = false

theorem pending_iff (hdecide : job.decide disk path = .ok decision) :
    job.Pending disk path ↔ decision.action.isChange = true := by
  constructor
  · rintro ⟨style, text, hclass, hread, hlicensed⟩
    rw [decide_of_unlicensed hclass hread hlicensed] at hdecide
    obtain rfl := Except.ok.inj hdecide
    exact isChange_stamp _
  · intro hchange
    obtain ⟨style, text, stamped, rfl⟩ := exists_stamp_of_isChange hchange
    unfold decide at hdecide
    split at hdecide
    · cases hdecide
    next found hclass =>
      split at hdecide
      · cases hdecide
      next other hread =>
        cases hlicensed : job.licensed other with
        | false => exact ⟨found, other, hclass, hread, hlicensed⟩
        | true =>
            rw [hlicensed, if_pos rfl] at hdecide
            cases hdecide

/-- A report that tells the decision about a file as the disk stands. -/
def Decided (job : Job) (disk : Disk) (path : Path) (report : FileReport) : Prop :=
  ∃ decision, job.decide disk path = .ok decision ∧
    report = decision.report (path.relativeTo job.root)

/-- A check to the end decides about all files on the disk before it. -/
theorem Runs.decided (h : job.Runs disk files after reports none) (hcheck : job.check = true) :
    List.Forall₂ (job.Decided disk) files reports := by
  generalize hfailure : (none : Option Failure) = failure at h
  induction h with
  | done => exact .nil
  | stopped => cases hfailure
  | next hstep _ ih =>
      obtain rfl := Runs.eq_of_check (.next hstep .done) hcheck
      exact .cons hstep.exists_decision (ih hfailure)

theorem exists_isChange_iff (h : List.Forall₂ (job.Decided disk) files reports) :
    (∃ report ∈ reports, report.action.isChange = true) ↔ ∃ path ∈ files, job.Pending disk path := by
  induction h with
  | nil => simp
  | cons hdecided _ ih =>
      obtain ⟨decision, hdecide, rfl⟩ := hdecided
      simp only [List.mem_cons, exists_eq_or_imp, ih, pending_iff hdecide]
      rfl

/-- Where nothing is to be changed, a run succeeds and changes nothing. -/
theorem processFiles_of_unchanging
    (h : ∀ path ∈ files, ∃ decision, job.decide disk path = .ok decision ∧
      decision.action.isChange = false) :
    (job.processFiles disk files).disk = disk ∧ (job.processFiles disk files).failure = none := by
  induction files with
  | nil => exact ⟨rfl, rfl⟩
  | cons path rest ih =>
      obtain ⟨decision, hdecide, hkeep⟩ := h path List.mem_cons_self
      obtain ⟨hdisk, -, hfailure⟩ :=
        processFile_of_unchanged hdecide (carryOut_of_unchanging hkeep)
      have hrest := ih fun other hother => h other (List.mem_cons_of_mem _ hother)
      simp only [processFiles, hfailure, hdisk, hrest, and_self]

/-- A check leaves the disk as it is. -/
theorem disk_run_of_check (hcheck : job.check = true) : (job.run disk).disk = disk := by
  cases hcollect : disk.collect job.root with
  | error cause => exact (run_of_error hcollect).1
  | ok files => exact (run_of_collect hcollect).eq_of_check hcheck

/-- A check that succeeds tells of a change if and only if a collected file is pending. -/
theorem exists_isChange_iff_of_check (hcheck : job.check = true)
    (hsuccess : (job.run disk).failure = none) :
    (∃ report ∈ (job.run disk).reports, report.action.isChange = true) ↔
      ∃ files, disk.collect job.root = .ok files ∧ ∃ path ∈ files, job.Pending disk path := by
  obtain ⟨files, hcollect⟩ := exists_collect_of_success hsuccess
  have hruns := run_of_collect hcollect
  rw [hsuccess] at hruns
  rw [exists_isChange_iff (hruns.decided hcheck), hcollect]
  simp

/-- After a check without pending changes the run itself succeeds and changes nothing. -/
theorem run_of_check_unchanging (root : Path)
    (hsuccess : ((Job.standard root true).run disk).failure = none)
    (hnone : ∀ files, disk.collect root = .ok files → ∀ path ∈ files,
      ¬ (Job.standard root true).Pending disk path) :
    ((Job.standard root false).run disk).disk = disk ∧
      ((Job.standard root false).run disk).failure = none := by
  obtain ⟨files, hcollect⟩ := exists_collect_of_success hsuccess
  have hruns := run_of_collect hcollect
  rw [hsuccess] at hruns
  obtain ⟨hdisk, -, hfailure⟩ := @run_eq_processFiles (Job.standard root false) _ _ hcollect
  rw [hdisk, hfailure]
  apply processFiles_of_unchanging
  intro path hpath
  obtain ⟨i, hi, rfl⟩ := List.mem_iff_getElem.1 hpath
  have hdecided := hruns.decided rfl
  have hlength : i < ((Job.standard root true).run disk).reports.length := hdecided.length_eq ▸ hi
  obtain ⟨decision, hdecide, -⟩ := hdecided.get hi hlength
  refine ⟨decision, hdecide, Bool.eq_false_iff.2 fun hchange => ?_⟩
  exact hnone files hcollect _ hpath ((pending_iff hdecide).2 hchange)

end Job

end LicenseStamp

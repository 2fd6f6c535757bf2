import LicenseStamp.Proofs.Run.Success

/-! # What a run decides on the way

Each report of a run tells the decision about its path on the disk that the steps before it
left. That disk is ahead of the first one: some files are stamped, all others are as they were.
So a decision on the way is the one that the first disk asks for, unless the path leads to a
file that was stamped meanwhile; such a file is kept.
-/

namespace LicenseStamp

namespace Job

variable {job : Job} {disk before middle after : Disk} {path : Path} {location : Location}
  {content : Bytes} {style : HeaderStyle} {files : List Path} {report : FileReport}
  {reports : List FileReport} {failure : Option Failure} {cause : Failure}

/-- A disk that differs from an earlier one only by files that missed the header and have it. -/
structure Ahead (job : Job) (before after : Disk) : Prop where
  shape_eq : after.shape = before.shape
  content : ∀ location, after.content? location = before.content? location ∨
    (∃ old, before.content? location = some old ∧ job.Misses old) ∧
      ∃ new, after.content? location = some new ∧ job.Accepts new

theorem Ahead.refl (job : Job) (disk : Disk) : job.Ahead disk disk := ⟨rfl, fun _ => .inl rfl⟩

theorem Ahead.trans (first : job.Ahead before middle) (second : job.Ahead middle after) :
    job.Ahead before after where
  shape_eq := second.shape_eq.trans first.shape_eq
  content location := by
    rcases second.content location with hsame | ⟨⟨old, hold, hmisses⟩, hnew⟩
    · rw [hsame]
      exact first.content location
    · rcases first.content location with hsame | ⟨-, new, hmiddle, haccepts⟩
      · exact .inr ⟨⟨old, hsame ▸ hold, hmisses⟩, hnew⟩
      -- a file that has the header already is not stamped again
      · obtain rfl := Option.some.inj (hmiddle.symm.trans hold)
        exact absurd hmisses haccepts.not_misses

theorem readText_congr (hshape : after.shape = before.shape) (hfile : before.LeadsToFile path)
    (hcontent : ∀ location, before.find path = .ok location →
      after.content? location = before.content? location) :
    after.readText path = before.readText path := by
  cases hfind : before.find path with
  | error cause =>
      have hafter : after.find path = .error cause := (Disk.find_of_shape hshape path).trans hfind
      simp only [Disk.readText, Disk.read, hfind, hafter, bind, Except.bind]
  | ok location =>
      have hafter : after.find path = .ok location := (Disk.find_of_shape hshape path).trans hfind
      obtain ⟨content, hold⟩ := hfile location hfind
      have hnew : after.content? location = some content := (hcontent location hfind).trans hold
      rw [Disk.readText_of_content? hafter hnew, Disk.readText_of_content? hfind hold]

/-- A decision looks at one file only: the one that the path leads to. -/
theorem decide_congr (job : Job) (hshape : after.shape = before.shape)
    (hfile : before.LeadsToFile path)
    (hcontent : ∀ location, before.find path = .ok location →
      after.content? location = before.content? location) :
    job.decide after path = job.decide before path := by
  simp only [decide, readText_congr hshape hfile hcontent]

theorem decide_of_accepts (hclass : Eligibility.classify job.root path = .candidate style)
    (hfind : disk.find path = .ok location) (hcontent : disk.content? location = some content)
    (haccepts : job.Accepts content) : job.decide disk path = .ok (.keep style) := by
  obtain ⟨text, hread, hlicensed⟩ := haccepts
  exact decide_of_licensed hclass ((Disk.readText_of_content? hfind hcontent).trans hread) hlicensed

theorem decide_of_misses (hclass : Eligibility.classify job.root path = .candidate style)
    (hfind : disk.find path = .ok location) (hcontent : disk.content? location = some content)
    (hmisses : job.Misses content) :
    ∃ text, job.decide disk path = .ok (.stamp style text (style.stamp text)) := by
  obtain ⟨text, hread, hlicensed⟩ := hmisses
  exact ⟨text, decide_of_unlicensed hclass
    ((Disk.readText_of_content? hfind hcontent).trans hread) hlicensed⟩

/-- Ahead of a disk a path is decided about as before, or its file was stamped meanwhile and is
    kept. -/
theorem Ahead.decide_cases (h : job.Ahead before after) (hfile : before.LeadsToFile path) :
    job.decide after path = job.decide before path ∨
      ∃ style text location, before.find path = .ok location ∧
        after.content? location ≠ before.content? location ∧
        job.decide before path = .ok (.stamp style text (style.stamp text)) ∧
        job.decide after path = .ok (.keep style) := by
  cases hclass : Eligibility.classify job.root path with
  | rejected reason =>
      exact .inl ((decide_of_rejected hclass).trans (decide_of_rejected hclass).symm)
  | candidate style =>
      by_cases hsame : ∀ location, before.find path = .ok location →
          after.content? location = before.content? location
      · exact .inl (decide_congr job h.shape_eq hfile hsame)
      · push Not at hsame
        obtain ⟨location, hfind, hne⟩ := hsame
        obtain ⟨⟨old, hold, hmisses⟩, new, hnew, haccepts⟩ := (h.content location).resolve_left hne
        obtain ⟨text, hstamp⟩ := decide_of_misses hclass hfind hold hmisses
        have hafter := (Disk.find_of_shape h.shape_eq path).trans hfind
        exact .inr ⟨style, text, location, hfind, hne, hstamp,
          decide_of_accepts hclass hafter hnew haccepts⟩

theorem Ahead.decide_error_iff (h : job.Ahead before after) (hfile : before.LeadsToFile path)
    {error : ReadError} :
    job.decide after path = .error error ↔ job.decide before path = .error error := by
  rcases h.decide_cases hfile with hsame | ⟨_, _, _, -, -, hstamp, hkeep⟩
  · rw [hsame]
  · simp [hstamp, hkeep]

/-- Only a text without the header is to be stamped. -/
theorem misses_of_decide {text : Text} {stamped : Stamped} (hfile : disk.LeadsToFile path)
    (h : job.decide disk path = .ok (.stamp style text stamped)) :
    Eligibility.classify job.root path = .candidate style ∧ ∃ location content,
      disk.find path = .ok location ∧ disk.content? location = some content ∧
        job.Misses content := by
  unfold decide at h
  split at h
  · cases h
  next other hclass =>
    split at h
    · cases h
    next found hread =>
      obtain ⟨location, hfind, -⟩ := Disk.readText_eq_ok hread
      obtain ⟨content, hcontent⟩ := hfile location hfind
      rw [Disk.readText_of_content? hfind hcontent] at hread
      cases hlicensed : job.licensed found with
      | true =>
          rw [hlicensed, if_pos rfl] at h
          cases h
      | false =>
          rw [hlicensed, if_neg Bool.false_ne_true] at h
          obtain ⟨rfl, rfl, rfl⟩ := Decision.stamp.inj (Except.ok.inj h)
          exact ⟨hclass, location, content, hfind, hcontent, _, hread, hlicensed⟩

theorem exists_stamp_of_isChange {decision : Decision} (h : decision.action.isChange = true) :
    ∃ style text stamped, decision = .stamp style text stamped := by
  cases decision with
  | skip | keep => cases h
  | stamp style text stamped => exact ⟨style, text, stamped, rfl⟩

/-- A report tells the decision that the disk asked for. -/
theorem Processed.exists_decision (h : job.Processed disk path after [report] none) :
    ∃ decision, job.decide disk path = .ok decision ∧
      report = decision.report (path.relativeTo job.root) := by
  cases h with
  | skipped hclass => exact ⟨_, decide_of_rejected hclass, rfl⟩
  | kept hclass hread hlicensed => exact ⟨_, decide_of_licensed hclass hread hlicensed, rfl⟩
  | checked hclass hread hlicensed | forgotten hclass _ _ hread hlicensed =>
      exact ⟨_, decide_of_unlicensed hclass hread hlicensed, rfl⟩
  | stamped hclass hfind hcontent hread hlicensed =>
      have htext := (Disk.readText_of_content? hfind hcontent).trans hread
      exact ⟨_, decide_of_unlicensed hclass htext hlicensed, rfl⟩

/-- A step fails because its file cannot be read, or because it is the running program. -/
theorem Processed.cause_cases (h : job.Processed disk path after reports (some cause))
    (hfile : disk.LeadsToFile path) :
    (∃ error, job.decide disk path = .error error ∧ cause = .read path error) ∨
      job.check = false ∧ ∃ location content text, disk.running = some location ∧
        disk.content? location = some content ∧ content.readText = .ok text := by
  cases h with
  | unread hclass hread => exact .inl ⟨_, decide_of_unread hclass hread, rfl⟩
  | unwritten hclass hread _ hcheck hwrite =>
      obtain ⟨location, hfind, -⟩ := Disk.readText_eq_ok hread
      obtain ⟨content, hcontent⟩ := hfile location hfind
      rw [Disk.write_of_content? hfind hcontent] at hwrite
      split at hwrite
      next hrunning =>
        exact .inr ⟨hcheck, location, content, _, hrunning, hcontent,
          (Disk.readText_of_content? hfind hcontent).symm.trans hread⟩
      · cases hwrite

namespace Runs

/-- A run stamps files and does nothing else. -/
theorem ahead (h : job.Runs disk files after reports failure) (hstamps : job.AcceptsStamps) :
    job.Ahead disk after where
  shape_eq := h.shape_eq
  content location := by
    by_cases hsame : after.content? location = disk.content? location
    · exact .inl hsame
    · obtain ⟨⟨path, hpath, hcand, hfind⟩, hmisses, hcheck⟩ := h.of_changed hsame
      obtain ⟨old, hold, -⟩ := id hmisses
      exact .inr ⟨hmisses, h.exists_accepts hstamps hcheck hpath hcand hfind hold⟩

/-- A run by which nothing may change changes nothing. -/
theorem eq_of_check (h : job.Runs disk files after reports failure) (hcheck : job.check = true) :
    after = disk := by
  induction h with
  | done | stopped => rfl
  | next hstep _ ih =>
      rcases hstep.eq_or_stamps with hsame | ⟨location, hstamped, -⟩
      · rw [ih, hsame]
      · have hwrites := hstamped.check
        rw [hcheck] at hwrites
        cases hwrites

/-- The run up to a report, and the step that is reported. -/
theorem exists_step (h : job.Runs disk files after reports failure) {i : Nat}
    (hreport : reports[i]? = some report) :
    ∃ path middle next, files[i]? = some path ∧
      job.Runs disk (files.take i) middle (reports.take i) none ∧
      job.Processed middle path next [report] none := by
  induction h generalizing i with
  | done | stopped => simp at hreport
  | next hstep onward ih =>
      cases i with
      | zero =>
          obtain rfl := Option.some.inj hreport
          exact ⟨_, _, _, rfl, .done, hstep⟩
      | succ i =>
          obtain ⟨path, middle, next, hpath, hruns, hlater⟩ := ih hreport
          exact ⟨path, middle, next, hpath, .next hstep hruns, hlater⟩

/-- The decision that a report tells was made on a disk ahead of the first one. -/
theorem exists_decision (h : job.Runs disk files after reports failure) (hstamps : job.AcceptsStamps)
    {i : Nat} (hpath : files[i]? = some path) (hreport : reports[i]? = some report) :
    ∃ middle decision, job.Runs disk (files.take i) middle (reports.take i) none ∧
      job.Ahead disk middle ∧ job.decide middle path = .ok decision ∧
      report = decision.report (path.relativeTo job.root) := by
  obtain ⟨other, middle, next, hother, hruns, hstep⟩ := h.exists_step hreport
  obtain rfl := Option.some.inj (hpath.symm.trans hother)
  obtain ⟨decision, hdecision, hreported⟩ := hstep.exists_decision
  exact ⟨middle, decision, hruns, hruns.ahead hstamps, hdecision, hreported⟩

end Runs

theorem run_eq_processFiles (h : disk.collect job.root = .ok files) :
    (job.run disk).disk = (job.processFiles disk files).disk ∧
      (job.run disk).reports = (job.processFiles disk files).reports ∧
      (job.run disk).failure = (job.processFiles disk files).failure := by
  simp only [run, h, and_self]

theorem Processed.ahead (h : job.Processed disk path after [report] none)
    (hstamps : job.AcceptsStamps) : job.Ahead disk after :=
  Runs.ahead (.next h .done) hstamps

end Job

end LicenseStamp

import LicenseStamp.Proofs.Header.Marker
import LicenseStamp.Proofs.Run.Step
import LicenseStamp.Proofs.Tree.Put
import Mathlib.Data.List.Forall2

/-! # What a run does to the disk

A run is a chain of steps, one for each file. The invariants of a step are that the shape of
the disk stays, that accepted content stays, and that whatever changes had missed the header
before. They carry over to the whole run, so what a run changes can be read off the disk it
starts from.
-/

namespace LicenseStamp

namespace Job

/-- A path whose file may receive a header. -/
def Candidate (job : Job) (path : Path) : Prop :=
  ∃ style, Eligibility.classify job.root path = .candidate style

/-- Content that is read as a text with the header. -/
def Accepts (job : Job) (content : Bytes) : Prop :=
  ∃ text, content.readText = .ok text ∧ job.licensed text = true

/-- Content that is read as a text without the header. -/
def Misses (job : Job) (content : Bytes) : Prop :=
  ∃ text, content.readText = .ok text ∧ job.licensed text = false

/-- A job that finds the header in each file it stamps. -/
def AcceptsStamps (job : Job) : Prop :=
  ∀ (style : HeaderStyle) (text : Text), job.Accepts (Utf8.encode (style.stamp text).content)

/-- What is reported about a path: whether it is a candidate, and how the root sees it. -/
def Reported (job : Job) (path : Path) (report : FileReport) : Prop :=
  report.path = path.relativeTo job.root ∧ (report.action ≠ .skipped ↔ job.Candidate path)

/-- What is known when processing a path stamps the file at a location. -/
structure Stamps (job : Job) (disk : Disk) (path : Path) (location : Location) (after : Disk)
    (reports : List FileReport) : Prop where
  candidate : job.Candidate path
  find : disk.find path = .ok location
  misses : ∃ old, disk.content? location = some old ∧ job.Misses old
  idle : disk.running ≠ some location
  check : job.check = false
  written : ∃ (style : HeaderStyle) (text : Text),
    after.content? location = some (Utf8.encode (style.stamp text).content)
  reported : ∀ report ∈ reports, report.action.isChange = true

variable {job : Job} {disk after : Disk} {path : Path} {location : Location} {content : Bytes}
  {files : List Path} {reports : List FileReport} {failure : Option Failure}

theorem Candidate.of_classify {style : HeaderStyle}
    (h : Eligibility.classify job.root path = .candidate style) : job.Candidate path :=
  ⟨style, h⟩

theorem not_candidate {reason : Text}
    (h : Eligibility.classify job.root path = .rejected reason) : ¬ job.Candidate path := by
  rintro ⟨style, hclass⟩
  rw [h] at hclass
  cases hclass

theorem isChange_stamp (stamped : Stamped) :
    (if stamped.replaced then Action.replaced else Action.added).isChange = true := by
  split <;> rfl

theorem carryOut_of_unchanging {decision : Decision} (h : decision.action.isChange = false) :
    decision.carryOut disk path = .ok disk := by
  cases decision with
  | skip | keep => rfl
  | stamp style text stamped => exact absurd (isChange_stamp stamped) (Bool.eq_false_iff.1 h)

theorem map_path_of_reported (h : List.Forall₂ job.Reported files reports) :
    reports.map FileReport.path = files.map fun path => path.relativeTo job.root := by
  induction h with
  | nil => rfl
  | cons hreported _ ih => rw [List.map_cons, List.map_cons, ih, hreported.1]

theorem Accepts.not_misses (h : job.Accepts content) : ¬ job.Misses content := by
  obtain ⟨text, hread, hlicensed⟩ := h
  rintro ⟨other, hother, hmisses⟩
  obtain rfl := Except.ok.inj (hread.symm.trans hother)
  rw [hlicensed] at hmisses
  cases hmisses

theorem content?_ne_of_accepts (hcontent : after.content? location = some content)
    (haccepts : job.Accepts content)
    (hmisses : ∃ old, disk.content? location = some old ∧ job.Misses old) :
    after.content? location ≠ disk.content? location := by
  obtain ⟨old, hold, hmisses⟩ := hmisses
  intro hsame
  obtain rfl := Option.some.inj (hcontent.symm.trans (hsame.trans hold))
  exact haccepts.not_misses hmisses

theorem Stamps.of_put {style : HeaderStyle} {text : Text}
    (hclass : Eligibility.classify job.root path = .candidate style)
    (hfind : disk.find path = .ok location) (hcontent : disk.content? location = some content)
    (hread : content.readText = .ok text) (hlicensed : job.licensed text = false)
    (hcheck : job.check = false) (hidle : disk.running ≠ some location) :
    job.Stamps disk path location
      (disk.put location (.file (Utf8.encode (style.stamp text).content)))
      [Decision.report (path.relativeTo job.root) (.stamp style text (style.stamp text))] where
  candidate := ⟨style, hclass⟩
  find := hfind
  misses := ⟨content, hcontent, text, hread, hlicensed⟩
  idle := hidle
  check := hcheck
  written := ⟨style, text, by rw [Disk.content?_put hcontent, if_pos rfl]⟩
  reported := by
    intro report hreport
    rw [List.mem_singleton.1 hreport]
    exact isChange_stamp _

/-- A stamped file has the header afterwards. -/
theorem Stamps.exists_accepts (h : job.Stamps disk path location after reports)
    (hstamps : job.AcceptsStamps) : ∃ new, after.content? location = some new ∧ job.Accepts new := by
  obtain ⟨style, text, hnew⟩ := h.written
  exact ⟨_, hnew, hstamps style text⟩

/-- Stamping a file changes its bytes. -/
theorem Stamps.content?_ne (h : job.Stamps disk path location after reports)
    (hstamps : job.AcceptsStamps) : after.content? location ≠ disk.content? location := by
  obtain ⟨new, hnew, haccepts⟩ := h.exists_accepts hstamps
  exact content?_ne_of_accepts hnew haccepts h.misses

namespace Processed

theorem shape_eq (h : job.Processed disk path after reports failure) :
    after.shape = disk.shape := by
  cases h with
  | stamped _ _ hcontent => exact Disk.shape_put hcontent _
  | unread | unwritten | skipped | kept | checked | forgotten => rfl

theorem of_failure {cause : Failure} (h : job.Processed disk path after reports (some cause)) :
    after = disk ∧ reports = [] := by
  cases h with
  | unread | unwritten => exact ⟨rfl, rfl⟩

theorem exists_report (h : job.Processed disk path after reports none) :
    ∃ report, reports = [report] ∧ job.Reported path report := by
  have not_skipped : ∀ stamped : Stamped,
      (if stamped.replaced then Action.replaced else Action.added) ≠ .skipped := by
    intro stamped hskipped
    have hchange := isChange_stamp stamped
    rw [hskipped] at hchange
    cases hchange
  cases h with
  | skipped hclass =>
      exact ⟨_, rfl, rfl, fun hne => absurd rfl hne, fun hcand => absurd hcand (not_candidate hclass)⟩
  | kept hclass _ _ => exact ⟨_, rfl, rfl, fun _ => .of_classify hclass, fun _ => nofun⟩
  | checked hclass | forgotten hclass | stamped hclass =>
      exact ⟨_, rfl, rfl, fun _ => .of_classify hclass, fun _ => not_skipped _⟩

/-- What a step does: it changes nothing, or stamps one file and nothing else. -/
theorem eq_or_stamps (h : job.Processed disk path after reports failure) :
    after = disk ∨ ∃ location, job.Stamps disk path location after reports ∧
      ∀ other, other ≠ location → after.content? other = disk.content? other := by
  cases h with
  | unread | unwritten | skipped | kept | checked | forgotten => exact .inl rfl
  | stamped hclass hfind hcontent hread hlicensed hcheck hidle =>
      refine .inr ⟨_, .of_put hclass hfind hcontent hread hlicensed hcheck hidle, fun other hne => ?_⟩
      rw [Disk.content?_put hcontent, if_neg hne]

/-- A step changes at most one file, and that only by stamping it. -/
theorem stamps_of_changed (h : job.Processed disk path after reports failure)
    (hchanged : after.content? location ≠ disk.content? location) :
    job.Stamps disk path location after reports := by
  rcases h.eq_or_stamps with rfl | ⟨stamped, hstamps, hothers⟩
  · exact absurd rfl hchanged
  · by_cases hsame : location = stamped
    · exact hsame ▸ hstamps
    · exact absurd (hothers location hsame) hchanged

theorem content?_of_accepts (h : job.Processed disk path after reports failure)
    (hcontent : disk.content? location = some content) (haccepts : job.Accepts content) :
    after.content? location = some content := by
  by_contra hne
  rw [← hcontent] at hne
  exact content?_ne_of_accepts hcontent haccepts (h.stamps_of_changed hne).misses rfl

/-- A candidate that is processed to the end leads somewhere. -/
theorem exists_find (h : job.Processed disk path after reports none) (hcand : job.Candidate path) :
    ∃ location, disk.find path = .ok location := by
  cases h with
  | skipped hclass => exact absurd hcand (not_candidate hclass)
  | kept _ hread _ | checked _ hread _ _ =>
      obtain ⟨location, hfind, -⟩ := Disk.readText_eq_ok hread
      exact ⟨location, hfind⟩
  | forgotten _ hfind | stamped _ hfind => exact ⟨_, hfind⟩

/-- A candidate that leads to a file leads to a file with the header afterwards. -/
theorem exists_accepts (h : job.Processed disk path after reports none) (hstamps : job.AcceptsStamps)
    (hcheck : job.check = false) (hcand : job.Candidate path)
    (hfind : disk.find path = .ok location) (hcontent : disk.content? location = some content) :
    ∃ new, after.content? location = some new ∧ job.Accepts new := by
  have hread := Disk.readText_of_content? hfind hcontent
  cases h with
  | skipped hclass => exact absurd hcand (not_candidate hclass)
  | kept _ hkept hlicensed => exact ⟨_, hcontent, _, hread.symm.trans hkept, hlicensed⟩
  | checked _ _ _ hchecks =>
      rw [hcheck] at hchecks
      cases hchecks
  | forgotten _ hdevice hnode _ _ _ =>
      obtain rfl := Except.ok.inj (hfind.symm.trans hdevice)
      rw [Disk.content?_eq_some_iff.1 hcontent] at hnode
      cases hnode
  | stamped _ hfile hold =>
      obtain rfl := Except.ok.inj (hfind.symm.trans hfile)
      exact ⟨_, by rw [Disk.content?_put hold, if_pos rfl], hstamps _ _⟩

end Processed

/-- What processing files one after the other comes to. -/
inductive Runs (job : Job) :
    Disk → List Path → Disk → List FileReport → Option Failure → Prop where
  /-- There is no file left. -/
  | done {disk : Disk} : Runs job disk [] disk [] none
  /-- The next file ends the run. -/
  | stopped {disk : Disk} {path : Path} {rest : List Path} {cause : Failure}
      (hstep : job.Processed disk path disk [] (some cause)) :
      Runs job disk (path :: rest) disk [] (some cause)
  /-- The next file is processed, and then the others. -/
  | next {disk middle after : Disk} {path : Path} {rest : List Path} {report : FileReport}
      {reports : List FileReport} {failure : Option Failure}
      (hstep : job.Processed disk path middle [report] none)
      (onward : Runs job middle rest after reports failure) :
      Runs job disk (path :: rest) after (report :: reports) failure

theorem runs_processFiles (job : Job) (disk : Disk) (files : List Path) :
    job.Runs disk files (job.processFiles disk files).disk (job.processFiles disk files).reports
      (job.processFiles disk files).failure := by
  induction files generalizing disk with
  | nil => exact .done
  | cons path rest ih =>
      have hstep := processed_processFile job disk path
      rw [processFiles]
      cases hfailure : (job.processFile disk path).failure with
      | some cause =>
          rw [hfailure] at hstep
          obtain ⟨hdisk, hreports⟩ := hstep.of_failure
          rw [hdisk, hreports] at hstep
          simp only [hfailure, hdisk, hreports]
          exact .stopped hstep
      | none =>
          rw [hfailure] at hstep
          obtain ⟨report, hreports, -⟩ := hstep.exists_report
          rw [hreports] at hstep
          simp only [hreports, List.singleton_append]
          exact .next hstep (ih _)

namespace Runs

theorem shape_eq (h : job.Runs disk files after reports failure) : after.shape = disk.shape := by
  induction h with
  | done | stopped => rfl
  | next hstep _ ih => rw [ih, hstep.shape_eq]

theorem content?_of_accepts (h : job.Runs disk files after reports failure)
    (hcontent : disk.content? location = some content) (haccepts : job.Accepts content) :
    after.content? location = some content := by
  induction h with
  | done | stopped => exact hcontent
  | next hstep _ ih => exact ih (hstep.content?_of_accepts hcontent haccepts)

theorem reported (h : job.Runs disk files after reports failure) :
    List.Forall₂ job.Reported (files.take reports.length) reports := by
  induction h with
  | done | stopped => exact .nil
  | next hstep _ ih =>
      obtain ⟨_, hreport, hreported⟩ := hstep.exists_report
      obtain rfl := List.singleton_inj.1 hreport
      exact .cons hreported ih

theorem exists_find (h : job.Runs disk files after reports failure)
    (hpath : path ∈ files.take reports.length) (hcand : job.Candidate path) :
    ∃ location, disk.find path = .ok location := by
  induction h with
  | done | stopped => cases hpath
  | next hstep _ ih =>
      rw [List.length_cons, List.take_succ_cons] at hpath
      rcases List.mem_cons.1 hpath with rfl | hpath
      · exact hstep.exists_find hcand
      · rw [← Disk.find_of_shape hstep.shape_eq]
        exact ih hpath

theorem length_of_success (h : job.Runs disk files after reports none) :
    reports.length = files.length := by
  generalize hfailure : (none : Option Failure) = failure at h
  induction h with
  | done => rfl
  | stopped => cases hfailure
  | next _ _ ih => rw [List.length_cons, List.length_cons, ih hfailure]

/-- What a run changes, a processed candidate leads to, and it missed the header before. -/
theorem of_changed (h : job.Runs disk files after reports failure)
    (hchanged : after.content? location ≠ disk.content? location) :
    (∃ path ∈ files.take reports.length, job.Candidate path ∧ disk.find path = .ok location) ∧
      (∃ old, disk.content? location = some old ∧ job.Misses old) ∧ job.check = false := by
  induction h with
  | done | stopped => exact absurd rfl hchanged
  | @next disk middle after path rest report reports failure hstep onward ih =>
      rw [List.length_cons, List.take_succ_cons]
      -- the first step that changes the file meets it as it was before the run
      by_cases hmiddle : middle.content? location = disk.content? location
      · obtain ⟨⟨other, hother, hcand, hfind⟩, hold, hcheck⟩ := ih (hmiddle ▸ hchanged)
        rw [Disk.find_of_shape hstep.shape_eq] at hfind
        rw [hmiddle] at hold
        exact ⟨⟨other, List.mem_cons_of_mem _ hother, hcand, hfind⟩, hold, hcheck⟩
      · have hstamps := hstep.stamps_of_changed hmiddle
        exact ⟨⟨path, List.mem_cons_self, hstamps.candidate, hstamps.find⟩, hstamps.misses,
          hstamps.check⟩

/-- A processed candidate that leads to a file leads to one with the header in the end. -/
theorem exists_accepts (h : job.Runs disk files after reports failure)
    (hstamps : job.AcceptsStamps) (hcheck : job.check = false)
    (hpath : path ∈ files.take reports.length) (hcand : job.Candidate path)
    (hfind : disk.find path = .ok location) (hcontent : disk.content? location = some content) :
    ∃ new, after.content? location = some new ∧ job.Accepts new := by
  induction h generalizing content with
  | done | stopped => cases hpath
  | next hstep onward ih =>
      rw [List.length_cons, List.take_succ_cons] at hpath
      rcases List.mem_cons.1 hpath with rfl | hpath
      · obtain ⟨new, hnew, haccepts⟩ := hstep.exists_accepts hstamps hcheck hcand hfind hcontent
        exact ⟨new, onward.content?_of_accepts hnew haccepts, haccepts⟩
      · obtain ⟨new, hnew⟩ := (Disk.exists_content?_of_shape hstep.shape_eq location).2 ⟨_, hcontent⟩
        rw [← Disk.find_of_shape hstep.shape_eq] at hfind
        exact ih hpath hfind hnew

/-- Unless it only checks, a run changes exactly the files without the header that a processed
    candidate leads to. -/
theorem changed_iff (h : job.Runs disk files after reports failure) (hstamps : job.AcceptsStamps) :
    after.content? location ≠ disk.content? location ↔
      (∃ path ∈ files.take reports.length, job.Candidate path ∧ disk.find path = .ok location) ∧
        (∃ old, disk.content? location = some old ∧ job.Misses old) ∧ job.check = false := by
  refine ⟨h.of_changed, ?_⟩
  rintro ⟨⟨path, hpath, hcand, hfind⟩, hmisses, hcheck⟩
  have ⟨old, hold, _⟩ := hmisses
  obtain ⟨new, hnew, haccepts⟩ := h.exists_accepts hstamps hcheck hpath hcand hfind hold
  exact content?_ne_of_accepts hnew haccepts hmisses

theorem changed_iff_of_success (h : job.Runs disk files after reports none)
    (hstamps : job.AcceptsStamps) :
    after.content? location ≠ disk.content? location ↔
      (∃ path ∈ files, job.Candidate path ∧ disk.find path = .ok location) ∧
        (∃ old, disk.content? location = some old ∧ job.Misses old) ∧ job.check = false := by
  rw [h.changed_iff hstamps, h.length_of_success, List.take_length]

end Runs

theorem run_of_collect (h : disk.collect job.root = .ok files) :
    job.Runs disk files (job.run disk).disk (job.run disk).reports (job.run disk).failure := by
  simp only [run, h]
  exact runs_processFiles job disk files

/-- A walk that breaks off ends the run before it begins. -/
theorem run_of_error {cause : WalkError} (h : disk.collect job.root = .error cause) :
    (job.run disk).disk = disk ∧ (job.run disk).failure = some (.walk job.root cause) := by
  simp only [run, h, and_self]

theorem exists_collect_of_success (h : (job.run disk).failure = none) :
    ∃ files, disk.collect job.root = .ok files := by
  cases hcollect : disk.collect job.root with
  | ok files => exact ⟨files, rfl⟩
  | error cause =>
      rw [(run_of_error hcollect).2] at h
      cases h

theorem acceptsStamps_standard (root : Path) (check : Bool) :
    (Job.standard root check).AcceptsStamps :=
  isMarked_stamp

end Job

end LicenseStamp

import LicenseStamp.Proofs.Run.Decision
import LicenseStamp.Proofs.Run.Idempotence
import LicenseStamp.Proofs.Tree.Extensionality

/-! # Running again after a failure

A run that meets a file that is no text stops there, with all files before it done. Once the
file is mended, a second run finds the files before it settled and goes on from the file. The
same happens if the file is mended first, since no path before it leads to the file: a file that
was met as a candidate can be read.
-/

namespace LicenseStamp

theorem Disk.readText_eq_notText {disk : Disk} {path : Path} (hfile : disk.LeadsToFile path)
    (h : disk.readText path = .error .notText) :
    ∃ location content, disk.find path = .ok location ∧ disk.content? location = some content ∧
      content.readText = .error .notText := by
  cases hfind : disk.find path with
  | error cause =>
      simp only [readText, read, hfind, bind, Except.bind] at h
      cases h
  | ok location =>
      obtain ⟨content, hcontent⟩ := hfile location hfind
      rw [readText_of_content? hfind hcontent] at h
      exact ⟨location, content, rfl, hcontent, h⟩

namespace Job

variable {job : Job} {disk after : Disk} {path other : Path} {location : Location}
  {old content : Bytes} {files rest : List Path} {reports : List FileReport} {cause : ReadError}

theorem not_accepts_of_notText (h : content.readText = .error .notText) : ¬ job.Accepts content := by
  rintro ⟨text, hread, -⟩
  rw [h] at hread
  cases hread

theorem Processed.readText_of_read {failed : Path}
    (h : job.Processed disk path after reports (some (.read failed cause))) :
    failed = path ∧ after = disk ∧ disk.readText path = .error cause := by
  cases h with
  | unread _ hread => exact ⟨rfl, rfl, hread⟩

section Put

/-! ## Runs beside a file

A run none of whose candidates leads to a file does the same, whatever the file says.
-/

variable (hwf : disk.top.isWellFormed = true) (hold : disk.content? location = some old)
include hold

theorem decide_put (new : Bytes) (hfile : disk.LeadsToFile path)
    (hbeside : job.Candidate path → disk.find path ≠ .ok location) :
    job.decide (disk.put location (.file new)) path = job.decide disk path := by
  cases hclass : Eligibility.classify job.root path with
  | rejected reason => rw [decide_of_rejected hclass, decide_of_rejected hclass]
  | candidate style =>
      refine decide_congr job (Disk.shape_put hold new) hfile fun goal hfind => ?_
      have hne : goal ≠ location := by
        rintro rfl
        exact hbeside (.of_classify hclass) hfind
      rw [Disk.content?_put hold, if_neg hne]

include hwf

theorem carryOut_put (new : Bytes) {decision : Decision} (hfile : disk.LeadsToFile path)
    (hbeside : job.Candidate path → disk.find path ≠ .ok location)
    (hdecision : job.decide disk path = .ok decision) :
    decision.carryOut (disk.put location (.file new)) path =
      (decision.carryOut disk path).map fun done => done.put location (.file new) := by
  cases decision with
  | skip | keep => rfl
  | stamp style text stamped =>
      obtain ⟨hclass, goal, content, hfind, hcontent, -⟩ := misses_of_decide hfile hdecision
      have hne : goal ≠ location := by
        rintro rfl
        exact hbeside (.of_classify hclass) hfind
      have hshape := Disk.shape_put hold new
      have hfind' := (Disk.find_of_shape hshape path).trans hfind
      have hcontent' : (disk.put location (.file new)).content? goal = some content := by
        rw [Disk.content?_put hold, if_neg hne, hcontent]
      simp only [Decision.carryOut, Disk.write_of_content? hfind hcontent,
        Disk.write_of_content? hfind' hcontent', Disk.running_of_shape hshape]
      split
      · rfl
      · rw [Disk.put_comm hwf hold hcontent hne]
        rfl

theorem processFile_put (new : Bytes) (hfile : disk.LeadsToFile path)
    (hbeside : job.Candidate path → disk.find path ≠ .ok location) :
    job.processFile (disk.put location (.file new)) path =
      { job.processFile disk path with
        disk := (job.processFile disk path).disk.put location (.file new) } := by
  simp only [processFile, decide_put hold new hfile hbeside]
  cases hdecision : job.decide disk path with
  | error cause => rfl
  | ok decision =>
      simp only [carryOut_put hwf hold new hfile hbeside hdecision]
      cases job.check with
      | true => rfl
      | false => cases decision.carryOut disk path <;> rfl

theorem processFiles_put (new : Bytes) (hfiles : ∀ path ∈ files, disk.LeadsToFile path)
    (hbeside : ∀ path ∈ files, job.Candidate path → disk.find path ≠ .ok location) :
    (job.processFiles (disk.put location (.file new)) files).disk =
        (job.processFiles disk files).disk.put location (.file new) ∧
      (job.processFiles (disk.put location (.file new)) files).failure =
        (job.processFiles disk files).failure := by
  induction files generalizing disk old with
  | nil => exact ⟨rfl, rfl⟩
  | cons path rest ih =>
      have hstep := processed_processFile job disk path
      have hshape := hstep.shape_eq
      obtain ⟨old', hold'⟩ := (Disk.exists_content?_of_shape hshape location).2 ⟨old, hold⟩
      have hlater := ih (Disk.isWellFormed_of_shape hshape hwf) hold' (hstep.leadsToFile_rest hfiles)
        fun other hother => by
          rw [Disk.find_of_shape hshape]
          exact hbeside other (List.mem_cons_of_mem _ hother)
      simp only [processFiles, processFile_put hwf hold new (hfiles path List.mem_cons_self)
        (hbeside path List.mem_cons_self)]
      cases hfailure : (job.processFile disk path).failure with
      | some cause => exact ⟨rfl, hfailure.symm⟩
      | none => exact hlater

end Put

/-- What is done without failure may be followed by more. -/
theorem processFiles_append (h : (job.processFiles disk files).failure = none) :
    (job.processFiles disk (files ++ rest)).disk =
        (job.processFiles (job.processFiles disk files).disk rest).disk ∧
      (job.processFiles disk (files ++ rest)).failure =
        (job.processFiles (job.processFiles disk files).disk rest).failure := by
  induction files generalizing disk with
  | nil => exact ⟨rfl, rfl⟩
  | cons path more ih =>
      simp only [List.cons_append, processFiles] at h ⊢
      cases hfailure : (job.processFile disk path).failure with
      | some cause => simp only [hfailure, reduceCtorEq] at h
      | none =>
          simp only [hfailure] at h
          exact ih h

/-- A failure stops a run at one path, after all paths before it. -/
theorem exists_stop {failure : Failure} (h : (job.processFiles disk files).failure = some failure) :
    ∃ front path rest, files = front ++ path :: rest ∧
      (job.processFiles disk front).failure = none ∧
      (job.processFiles disk front).disk = (job.processFiles disk files).disk ∧
      (job.processFile (job.processFiles disk files).disk path).failure = some failure := by
  induction files generalizing disk with
  | nil => cases h
  | cons path more ih =>
      simp only [processFiles] at h ⊢
      cases hfailure : (job.processFile disk path).failure with
      | some cause =>
          have hstep := processed_processFile job disk path
          rw [hfailure] at hstep
          simp only [hfailure] at h ⊢
          obtain rfl := Option.some.inj h
          refine ⟨[], path, more, rfl, rfl, hstep.of_failure.1.symm, ?_⟩
          rw [hstep.of_failure.1, hfailure]
      | none =>
          simp only [hfailure] at h ⊢
          obtain ⟨front, stop, rest, rfl, hnone, hdisk, hstop⟩ := ih h
          refine ⟨path :: front, stop, rest, rfl, ?_, ?_, hstop⟩
          · simp only [processFiles, hfailure, hnone]
          · simp only [processFiles, hfailure, hdisk]

theorem Settled.put {new : Bytes} (h : job.Settled disk path)
    (hold : disk.content? location = some old) (hrefused : ¬ job.Accepts old) :
    job.Settled (disk.put location (.file new)) path := by
  intro hcand
  obtain ⟨goal, content, hfind, hcontent, haccepts⟩ := h hcand
  have hne : goal ≠ location := by
    rintro rfl
    obtain rfl := Option.some.inj (hold.symm.trans hcontent)
    exact hrefused haccepts
  refine ⟨goal, content, (Disk.find_of_shape (Disk.shape_put hold new) path).trans hfind, ?_, haccepts⟩
  rw [Disk.content?_put hold, if_neg hne, hcontent]

/-- No candidate of a run to the end leads to a file that is no text afterwards. -/
theorem Runs.find_ne_of_notText (h : job.Runs disk files after reports none)
    (hstamps : job.AcceptsStamps) (hcheck : job.check = false)
    (hfiles : ∀ path ∈ files, disk.LeadsToFile path) (hcontent : after.content? location = some content)
    (hread : content.readText = .error .notText) (hpath : path ∈ files) (hcand : job.Candidate path) :
    disk.find path ≠ .ok location := by
  intro hfind
  obtain ⟨goal, new, hgoal, hnew, haccepts⟩ := h.settled hstamps hcheck hfiles path hpath hcand
  rw [Disk.find_of_shape h.shape_eq, hfind] at hgoal
  obtain rfl := Except.ok.inj hgoal
  obtain rfl := Option.some.inj (hcontent.symm.trans hnew)
  exact not_accepts_of_notText hread haccepts

/-- A run may start where some of its files are done already, also when a file that was no text is
    mended meanwhile. -/
theorem run_of_done {middle : Disk} (hnone : (job.processFiles disk files).failure = none)
    (hmiddle : (job.processFiles disk files).disk = middle) (hstamps : job.AcceptsStamps)
    (hcheck : job.check = false) (hwf : disk.top.isWellFormed = true)
    (hcollect : disk.collect job.root = .ok (files ++ rest))
    (hfiles : ∀ path ∈ files, disk.LeadsToFile path)
    (hold : disk.content? location = some content) (hsame : middle.content? location = some content)
    (hread : content.readText = .error .notText) (mended : Bytes) :
    (job.run (middle.put location (.file mended))).disk =
        (job.run (disk.put location (.file mended))).disk ∧
      (job.run (middle.put location (.file mended))).failure =
        (job.run (disk.put location (.file mended))).failure := by
  have hruns := runs_processFiles job disk files
  rw [hnone, hmiddle] at hruns
  have hshape := Disk.shape_put hold mended
  have hshape' := (Disk.shape_put hsame mended).trans hruns.shape_eq
  obtain ⟨hwhole, -, hwhole'⟩ :=
    run_eq_processFiles ((Disk.collect_of_shape hshape _).trans hcollect)
  obtain ⟨hresumed, -, hresumed'⟩ :=
    run_eq_processFiles ((Disk.collect_of_shape hshape' _).trans hcollect)
  -- one run does the files beside the mended one, and the other finds them settled
  obtain ⟨hput, hput'⟩ := @processFiles_put job _ _ _ files hwf hold mended hfiles
    fun path => hruns.find_ne_of_notText hstamps hcheck hfiles hsame hread
  rw [hmiddle] at hput
  rw [hnone] at hput'
  obtain ⟨hkept, hkept', -⟩ :=
    (runs_processFiles job (middle.put location (.file mended)) files).of_settled fun path hpath =>
      (hruns.settled hstamps hcheck hfiles path hpath).put hsame (not_accepts_of_notText hread)
  obtain ⟨hlater, hlater'⟩ := @processFiles_append _ _ _ rest hput'
  obtain ⟨hagain, hagain'⟩ := @processFiles_append _ _ _ rest hkept'
  constructor
  · rw [hwhole, hresumed, hlater, hagain, hput, hkept]
  · rw [hwhole', hresumed', hlater', hagain', hput, hkept]

/-- A run that stops at a file that is no text has done the files before it and nothing else.
    Once the file is mended, another run comes to the end that one run would have come to if the
    file had been mended before, whatever bytes the file gets. -/
theorem run_resumes {root : Path} {disk : Disk} {path : Path} (hwf : disk.top.isWellFormed = true)
    (hstopped : ((Job.standard root false).run disk).failure = some (.read path .notText)) :
    let job := Job.standard root false
    let stopped := job.run disk
    ∃ front rest location content, disk.collect root = .ok (front ++ path :: rest) ∧
      (job.processFiles disk front).failure = none ∧
      (job.processFiles disk front).disk = stopped.disk ∧
      (job.processFile stopped.disk path).disk = stopped.disk ∧
      (job.processFile stopped.disk path).failure = stopped.failure ∧
      disk.find path = .ok location ∧ disk.content? location = some content ∧
      content.readText = .error .notText ∧
      ∀ mended : Bytes,
        let resumed := job.run (stopped.disk.put location (.file mended))
        let whole := job.run (disk.put location (.file mended))
        resumed.disk = whole.disk ∧ resumed.failure = whole.failure := by
  intro job stopped
  have hstamps : job.AcceptsStamps := acceptsStamps_standard root false
  cases hcollect : disk.collect root with
  | error cause =>
      have hwalk := (@run_of_error job _ _ hcollect).2
      rw [hstopped] at hwalk
      cases hwalk
  | ok files =>
      obtain ⟨hdisk, -, hfailure⟩ := @run_eq_processFiles job _ _ hcollect
      obtain ⟨front, failed, rest, rfl, hnone, hfront, hstop⟩ :=
        exists_stop (hfailure.symm.trans hstopped)
      rw [← hdisk] at hfront hstop
      have hfiles : ∀ path ∈ front ++ failed :: rest, disk.LeadsToFile path := fun path hpath =>
        Disk.leadsToFile_of_mem_collect hwf hcollect hpath
      have hfiles' : ∀ path ∈ front, disk.LeadsToFile path := fun path hpath =>
        hfiles path (List.mem_append_left _ hpath)
      have hbefore := runs_processFiles job disk front
      rw [hnone, hfront] at hbefore
      have hshape : stopped.disk.shape = disk.shape := hbefore.shape_eq
      have hstep := processed_processFile job stopped.disk failed
      rw [hstop] at hstep
      obtain ⟨rfl, hsame, hread⟩ := hstep.readText_of_read
      obtain ⟨location, content, hfind, hcontent, hnotText⟩ :=
        Disk.readText_eq_notText ((hfiles path (by simp)).of_shape hshape) hread
      -- the steps before leave texts behind, so the file was the same before them
      have hcontent' : disk.content? location = some content := by
        rcases (hbefore.ahead hstamps).content location with heq | ⟨-, new, hnew, haccepts⟩
        · rw [← heq, hcontent]
        · obtain rfl := Option.some.inj (hcontent.symm.trans hnew)
          exact absurd haccepts (not_accepts_of_notText hnotText)
      refine ⟨front, rest, location, content, rfl, hnone, hfront, hsame, hstop.trans hstopped.symm,
        (Disk.find_of_shape hshape path).symm.trans hfind, hcontent', hnotText, ?_⟩
      intro mended resumed whole
      exact run_of_done hnone hfront hstamps rfl hwf hcollect hfiles' hcontent' hcontent hnotText mended

open Disk in
/-- On the site with a page that is no text the script is stamped before the run stops. With an
    empty page instead the next run comes to the end of a run over the site with an empty page. -/
theorem run_resumes_aliasedSite :
    let job := Job.standard aliasedSiteRoot false
    let stopped := job.run (aliasedSite [0xFF])
    let resumed := job.run (stopped.disk.put aliasedSitePage (.file []))
    (aliasedSite [0xFF]).top.isWellFormed = true ∧
      stopped.failure = some (.read (.ofText ['/', 's', '/', 'p', '.', 'm', 'd']) .notText) ∧
      stopped.disk.content? aliasedSiteScript ≠ some [] ∧ resumed.failure = none ∧
      resumed.disk = (job.run (aliasedSite [])).disk := by
  intro job stopped resumed
  obtain ⟨hdisk, -, hfailure⟩ := @run_eq_processFiles job _ _ (collect_aliasedSite [0xFF])
  have hstops : stopped.failure =
      some (.read (.ofText ['/', 's', '/', 'p', '.', 'm', 'd']) .notText) ∧
        stopped.disk.content? aliasedSiteScript ≠ some [] := by
    rw [hfailure, hdisk]
    decide +kernel
  obtain ⟨hstopped, hscript⟩ := hstops
  obtain ⟨_, _, location, _, -, -, -, -, -, hfind, -, -, hmended⟩ :=
    run_resumes (isWellFormed_aliasedSite [0xFF]) hstopped
  obtain rfl := Except.ok.inj ((find_aliasedSite [0xFF]).2.2.symm.trans hfind)
  have hput : (aliasedSite [0xFF]).put aliasedSitePage (.file []) = aliasedSite [] := rfl
  obtain ⟨hsame, hsame'⟩ := hmended []
  rw [hput] at hsame hsame'
  exact ⟨isWellFormed_aliasedSite [0xFF], hstopped, hscript,
    hsame'.trans (run_aliasedSite_succeeds false), hsame⟩

end Job

end LicenseStamp

import LicenseStamp.Command.Run
import LicenseStamp.Proofs.Report.Summary
import LicenseStamp.Proofs.Run.Pending
import LicenseStamp.Proofs.Run.Success
import LicenseStamp.Proofs.Tree.Write

/-! # The command in check mode

A check writes nothing but the report document that was asked for. Its exit code tells whether it
failed or found a pending change. If it did neither, the same command without the check has
nothing to do.
-/

namespace LicenseStamp.Command

namespace Settings

variable {settings : Settings} {around : Surroundings} {program path : Path} {disk : Disk}
  {progress : Progress}

/-- Whether there is a candidate below the root that is read without the header. -/
def HasPending (settings : Settings) (program : Path) (disk : Disk) : Prop :=
  ∃ root files, disk.chooseRoot program settings.root = .ok root ∧ disk.collect root = .ok files ∧
    ∃ path ∈ files, (Job.standard root settings.check).Pending disk path

/-- The bytes of the report document of a run. -/
def document (settings : Settings) (around : Surroundings) (progress : Progress) : Bytes :=
  Utf8.encode (reportDocument progress.reports
    (Summary.ofReports progress.reports settings.check) around.elapsed)

/-- The exit code of a run that does not fail. -/
def exitCode (settings : Settings) (progress : Progress) : Nat :=
  if settings.check ∧ (Summary.ofReports progress.reports settings.check).hasChanges then 1 else 0

/-! ## Processing -/

theorem disk_process_of_check (hcheck : settings.check = true) :
    (settings.process program disk).disk = disk := by
  rw [process]
  cases disk.chooseRoot program settings.root with
  | error cause => rfl
  | ok root => exact Job.disk_run_of_check hcheck

theorem exists_root_of_success (h : (settings.process program disk).failure = none) :
    ∃ root, disk.chooseRoot program settings.root = .ok root ∧
      ((Job.standard root settings.check).run disk).failure = none ∧
      (settings.process program disk).reports =
        ((Job.standard root settings.check).run disk).reports := by
  rw [process] at h ⊢
  cases hroot : disk.chooseRoot program settings.root with
  | error cause =>
      rw [hroot] at h
      cases h
  | ok root =>
      rw [hroot] at h
      exact ⟨root, rfl, h, rfl⟩

/-- A check that succeeds has changes if and only if a candidate is pending. -/
theorem hasChanges_iff_hasPending (hcheck : settings.check = true)
    (hsuccess : (settings.process program disk).failure = none) :
    (Summary.ofReports (settings.process program disk).reports settings.check).hasChanges = true ↔
      settings.HasPending program disk := by
  obtain ⟨root, hroot, hrun, hreports⟩ := exists_root_of_success hsuccess
  rw [Summary.hasChanges_iff, hreports, Job.exists_isChange_iff_of_check hcheck hrun, HasPending]
  constructor
  · rintro ⟨files, hcollect, hpending⟩
    exact ⟨root, files, hroot, hcollect, hpending⟩
  · rintro ⟨other, files, hother, hcollect, hpending⟩
    obtain rfl := Except.ok.inj (hroot.symm.trans hother)
    exact ⟨files, hcollect, hpending⟩

/-- Without a pending candidate the run after a check has nothing to do. -/
theorem process_of_not_hasPending (hcheck : settings.check = true)
    (hsuccess : (settings.process program disk).failure = none)
    (hnone : ¬ settings.HasPending program disk) :
    let real := { settings with check := false }
    (real.process program disk).disk = disk ∧ (real.process program disk).failure = none := by
  intro real
  obtain ⟨root, hroot, hrun, -⟩ := exists_root_of_success hsuccess
  have hroot' : disk.chooseRoot program real.root = .ok root := hroot
  rw [hcheck] at hrun
  rw [process, hroot']
  apply Job.run_of_check_unchanging root hrun
  intro files hcollect path hpath hpending
  refine hnone ⟨root, files, hroot, hcollect, path, hpath, ?_⟩
  rw [hcheck]
  exact hpending

/-! ## Ending a run -/

theorem conclude_of_failure {failure : Failure} (h : progress.failure = some failure) :
    (settings.conclude around progress).disk = progress.disk ∧
      (settings.conclude around progress).code = 1 := by
  simp only [conclude, h, and_self]

theorem conclude_of_unreported (hsuccess : progress.failure = none)
    (hreport : settings.report = none) :
    (settings.conclude around progress).disk = progress.disk ∧
      (settings.conclude around progress).code = settings.exitCode progress := by
  simp only [conclude, hsuccess, hreport, exitCode, and_self]

theorem conclude_of_written {after : Disk} (hsuccess : progress.failure = none)
    (hreport : settings.report = some path)
    (hwrite : progress.disk.write path (settings.document around progress) = .ok after) :
    (settings.conclude around progress).disk = after ∧
      (settings.conclude around progress).code = settings.exitCode progress := by
  rw [document] at hwrite
  simp only [conclude, hsuccess, hreport, hwrite, exitCode, and_self]

/-- A report document that cannot be written makes the run fail. -/
theorem conclude_of_unwritten {cause : DiskError} (hsuccess : progress.failure = none)
    (hreport : settings.report = some path)
    (hwrite : progress.disk.write path (settings.document around progress) = .error cause) :
    (settings.conclude around progress).disk = progress.disk ∧
      (settings.conclude around progress).code = 1 ∧
      (Failure.report path cause).fatal <:+ (settings.conclude around progress).err := by
  rw [document] at hwrite
  simp only [conclude, hsuccess, hreport, hwrite, true_and]
  exact List.suffix_append _ _

/-! ## A run in check mode -/

/-- Whether an exit code tells if a candidate is pending. -/
def Tells (settings : Settings) (program : Path) (disk : Disk) (code : Nat) : Prop :=
  (code = 0 ∨ code = 1) ∧ (code = 1 ↔ settings.HasPending program disk)

theorem tells_of_success (hcheck : settings.check = true)
    (hsuccess : (settings.process program disk).failure = none) :
    settings.Tells program disk (settings.exitCode (settings.process program disk)) := by
  rw [Tells, ← hasChanges_iff_hasPending hcheck hsuccess, exitCode]
  cases Summary.hasChanges _ <;> simp [hcheck]

/-- How a check ends. -/
inductive CheckEnds (settings : Settings) (around : Surroundings) (disk : Disk)
    (progress : Progress) (ending : Ending) : Prop where
  /-- Processing fails. -/
  | failed (hfailure : progress.failure ≠ none) (hdisk : ending.disk = disk)
      (hcode : ending.code = 1)
  /-- No report document is asked for. -/
  | unreported (hsuccess : progress.failure = none) (hreport : settings.report = none)
      (hdisk : ending.disk = disk) (htells : settings.Tells around.program disk ending.code)
  /-- The report document is written. -/
  | written {path : Path} (hsuccess : progress.failure = none)
      (hreport : settings.report = some path)
      (hwrite : disk.write path (settings.document around progress) = .ok ending.disk)
      (htells : settings.Tells around.program disk ending.code)
  /-- The report document cannot be written. -/
  | unwritten {path : Path} {cause : DiskError} (hsuccess : progress.failure = none)
      (hreport : settings.report = some path)
      (hwrite : disk.write path (settings.document around progress) = .error cause)
      (hdisk : ending.disk = disk) (hcode : ending.code = 1)
      (herr : (Failure.report path cause).fatal <:+ ending.err)

theorem checkEnds_conclude (hdisk : progress.disk = disk)
    (htells : progress.failure = none →
      settings.Tells around.program disk (settings.exitCode progress)) :
    settings.CheckEnds around disk progress (settings.conclude around progress) := by
  cases hfailure : progress.failure with
  | some failure =>
      obtain ⟨hkept, hcode⟩ := @conclude_of_failure settings around _ _ hfailure
      exact .failed (by simp [hfailure]) (hkept.trans hdisk) hcode
  | none =>
      cases hreport : settings.report with
      | none =>
          obtain ⟨hkept, hcode⟩ := @conclude_of_unreported settings around _ hfailure hreport
          exact .unreported hfailure hreport (hkept.trans hdisk) (hcode ▸ htells hfailure)
      | some path =>
          subst hdisk
          cases hwrite : progress.disk.write path (settings.document around progress) with
          | ok after =>
              obtain ⟨hwritten, hcode⟩ := conclude_of_written hfailure hreport hwrite
              exact .written hfailure hreport (hwritten ▸ hwrite) (hcode ▸ htells hfailure)
          | error cause =>
              obtain ⟨hkept, hcode, herr⟩ := conclude_of_unwritten hfailure hreport hwrite
              exact .unwritten hfailure hreport hwrite hkept hcode herr

theorem checkEnds_run (around : Surroundings) (disk : Disk) (hcheck : settings.check = true) :
    settings.CheckEnds around disk (settings.process around.program disk)
      (settings.run around disk) :=
  checkEnds_conclude (disk_process_of_check hcheck) (tells_of_success hcheck)

variable {ending : Ending} {location : Location}

/-- A check changes nothing but the file that the report document goes to. -/
theorem CheckEnds.alone_node? (h : settings.CheckEnds around disk progress ending)
    (hother : ∀ path, settings.report = some path → disk.writeTarget? path ≠ some location) :
    (ending.disk.node? location).map Node.alone = (disk.node? location).map Node.alone := by
  cases h with
  | failed _ hdisk | unreported _ _ hdisk | unwritten _ _ _ hdisk => rw [hdisk]
  | written _ hreport hwrite => exact Disk.alone_of_write hwrite (hother _ hreport)

theorem CheckEnds.code_cases (h : settings.CheckEnds around disk progress ending) :
    ending.code = 0 ∨ ending.code = 1 := by
  cases h with
  | failed _ _ hcode | unwritten _ _ _ _ hcode => exact .inr hcode
  | unreported _ _ _ htells | written _ _ _ htells => exact htells.1

/-- Whether the report document that is asked for cannot be written. -/
def IsUnwritable (settings : Settings) (around : Surroundings) (progress : Progress)
    (disk : Disk) : Prop :=
  ∃ path cause, settings.report = some path ∧
    disk.write path (settings.document around progress) = .error cause

theorem not_isUnwritable_of_unreported (hreport : settings.report = none) :
    ¬ settings.IsUnwritable around progress disk := by
  rintro ⟨path, cause, hpath, -⟩
  cases hreport.symm.trans hpath

theorem not_isUnwritable_of_written {after : Disk} (hreport : settings.report = some path)
    (hwrite : disk.write path (settings.document around progress) = .ok after) :
    ¬ settings.IsUnwritable around progress disk := by
  rintro ⟨other, cause, hother, herror⟩
  obtain rfl := Option.some.inj (hreport.symm.trans hother)
  cases hwrite.symm.trans herror

theorem CheckEnds.code_eq_one_iff (h : settings.CheckEnds around disk progress ending) :
    ending.code = 1 ↔ progress.failure ≠ none ∨ settings.IsUnwritable around progress disk ∨
      settings.HasPending around.program disk := by
  cases h with
  | failed hfailure _ hcode => exact iff_of_true hcode (.inl hfailure)
  | unwritten _ hreport hwrite _ hcode =>
      exact iff_of_true hcode (.inr (.inl ⟨_, _, hreport, hwrite⟩))
  | unreported hsuccess hreport _ htells =>
      simp only [htells.2, hsuccess, ne_eq, not_true, not_isUnwritable_of_unreported hreport,
        false_or]
  | written hsuccess hreport hwrite htells =>
      simp only [htells.2, hsuccess, ne_eq, not_true, not_isUnwritable_of_written hreport hwrite,
        false_or]

/-- Once processing succeeds, the report document is written, whatever the exit code; if it cannot
    be written, the run says so and fails. -/
theorem CheckEnds.of_report (h : settings.CheckEnds around disk progress ending)
    (hsuccess : progress.failure = none) (hreport : settings.report = some path) :
    disk.write path (settings.document around progress) = .ok ending.disk ∨
      ∃ cause, disk.write path (settings.document around progress) = .error cause ∧
        ending.disk = disk ∧ ending.code = 1 ∧ (Failure.report path cause).fatal <:+ ending.err := by
  cases h with
  | failed hfailure => exact absurd hsuccess hfailure
  | unreported _ hnone => cases hnone.symm.trans hreport
  | written _ hsome hwrite =>
      obtain rfl := Option.some.inj (hsome.symm.trans hreport)
      exact .inl hwrite
  | unwritten _ hsome hwrite hdisk hcode herr =>
      obtain rfl := Option.some.inj (hsome.symm.trans hreport)
      exact .inr ⟨_, hwrite, hdisk, hcode, herr⟩

/-- After a check without a report document that ends well, the run itself ends well and changes
    nothing. -/
theorem run_of_check (hcheck : settings.check = true) (hreport : settings.report = none)
    (hcode : (settings.run around disk).code = 0) :
    let real := { settings with check := false }
    (real.run around disk).disk = disk ∧ (real.run around disk).code = 0 := by
  intro real
  have hends := settings.checkEnds_run around disk hcheck
  -- the exit code 0 rules out each of the three reasons for 1
  have hgood := mt hends.code_eq_one_iff.2 (by simp [hcode])
  simp only [not_or, not_not] at hgood
  obtain ⟨hdisk, hsuccess⟩ := process_of_not_hasPending hcheck hgood.1 hgood.2.2
  obtain ⟨hkept, hzero⟩ := @conclude_of_unreported real around _ hsuccess hreport
  exact ⟨hkept.trans hdisk, hzero.trans (if_neg fun h => nomatch h.1)⟩

end Settings

/-! ## Sites to check -/

open Disk in
theorem hasPending_aliasedSite {settings : Settings} (program : Path)
    (hroot : settings.root = some aliasedSiteRoot) :
    settings.HasPending program (aliasedSite []) := by
  have hchosen : (aliasedSite []).rootAt aliasedSiteRoot = .ok aliasedSiteRoot := rfl
  have hlicensed : hasMarker [] = false := rfl
  refine ⟨aliasedSiteRoot, aliasedSiteFiles, ?_, collect_aliasedSite [],
    .ofText ['/', 's', '/', 'p', '.', 'm', 'd'], by decide +kernel, .html, [], ?_, ?_, hlicensed⟩
  · rw [hroot]
    exact hchosen
  · show Eligibility.classify aliasedSiteRoot _ = _
    rfl
  · rfl

open Disk in
theorem process_aliasedSite_succeeds {settings : Settings} (program : Path)
    (hroot : settings.root = some aliasedSiteRoot) :
    (settings.process program (aliasedSite [])).failure = none := by
  have hchosen : (aliasedSite []).rootAt aliasedSiteRoot = .ok aliasedSiteRoot := rfl
  simp only [Settings.process, hroot, chooseRoot, hchosen, Job.run_aliasedSite_succeeds]

/-- A document can be written next to the site. -/
theorem write_aliasedSite (document : Bytes) :
    (Disk.aliasedSite []).write (.ofText ['/', 'r']) document =
      .ok ((Disk.aliasedSite []).put [Utf8.encode ['r']] (.file document)) := by
  have hmissing : (Disk.aliasedSite []).destination .write (.ofText ['/', 'r']) =
      .ok (.missing [] (Utf8.encode ['r']) []) := rfl
  simp only [Disk.write, hmissing]
  rfl

/-- A site that holds a note and nothing to stamp. -/
def noteSite : Disk where
  top := .dir [(Utf8.encode ['s'], .dir [(Utf8.encode ['n', '.', 't', 'x', 't'], .file [])])]
  current := []

theorem rootAt_noteSite : noteSite.rootAt Disk.aliasedSiteRoot = .ok Disk.aliasedSiteRoot := rfl

theorem collect_noteSite :
    noteSite.collect Disk.aliasedSiteRoot =
      .ok [.ofText ['/', 's', '/', 'n', '.', 't', 'x', 't']] := by
  have hroot : noteSite.find Disk.aliasedSiteRoot = .ok [Utf8.encode ['s']] := by decide +kernel
  have hentries : noteSite.entries? [Utf8.encode ['s']] = some _ := rfl
  rw [Disk.collect, Disk.walk_of_find hroot, hentries]
  simp only [Node.walk]
  decide +kernel

open Disk in
theorem not_hasPending_noteSite {settings : Settings} (program : Path)
    (hroot : settings.root = some aliasedSiteRoot) : ¬ settings.HasPending program noteSite := by
  rintro ⟨root, files, hchosen, hcollect, path, hpath, style, text, hclass, -⟩
  rw [hroot] at hchosen
  obtain rfl := Except.ok.inj (rootAt_noteSite.symm.trans hchosen)
  obtain rfl := Except.ok.inj (collect_noteSite.symm.trans hcollect)
  obtain rfl := List.mem_singleton.1 hpath
  have hrejected : Eligibility.classify aliasedSiteRoot
      (.ofText ['/', 's', '/', 'n', '.', 't', 'x', 't']) ≠ .candidate style := by
    cases style <;> decide +kernel
  exact hrejected hclass

open Disk in
theorem process_noteSite_succeeds {settings : Settings} (program : Path)
    (hroot : settings.root = some aliasedSiteRoot) (hcheck : settings.check = true) :
    (settings.process program noteSite).failure = none := by
  obtain ⟨-, -, hfailure⟩ :=
    @Job.run_eq_processFiles (Job.standard aliasedSiteRoot true) _ _ collect_noteSite
  simp only [Settings.process, hroot, hcheck, chooseRoot, rootAt_noteSite, hfailure]
  decide +kernel

/-! ## The command -/

/-- Arguments that ask for a check leave every node of the tree as it is but the file that the
    report document goes to. The exit code is 1 if the run fails or a candidate is pending, and 0
    otherwise. Pending candidates do not keep the document from being written. A check that ends
    with 0 and writes no document tells that the run itself ends with 0 and changes nothing.
    Arguments that ask for no run change nothing. -/
theorem execute_of_check (around : Surroundings) (arguments : List Path) (disk : Disk) :
    let ending := execute around arguments disk
    (∀ settings, Request.ofArguments arguments = .ok (.run settings) → settings.check = true →
      let progress := settings.process around.program disk
      (∀ location,
        (∀ path, settings.report = some path → disk.writeTarget? path ≠ some location) →
        (ending.disk.node? location).map Node.alone = (disk.node? location).map Node.alone) ∧
      (ending.code = 0 ∨ ending.code = 1) ∧
      (ending.code = 1 ↔ progress.failure ≠ none ∨ settings.IsUnwritable around progress disk ∨
        settings.HasPending around.program disk) ∧
      (progress.failure = none → ∀ path, settings.report = some path →
        disk.write path (settings.document around progress) = .ok ending.disk ∨
          ∃ cause, disk.write path (settings.document around progress) = .error cause ∧
            ending.disk = disk ∧ ending.code = 1 ∧
            (Failure.report path cause).fatal <:+ ending.err) ∧
      (settings.report = none → ending.code = 0 →
        let real := { settings with check := false }
        (real.run around disk).disk = disk ∧ (real.run around disk).code = 0)) ∧
    ((∀ settings, Request.ofArguments arguments ≠ .ok (.run settings)) →
      ending.disk = disk) := by
  intro ending
  refine ⟨fun settings harguments hcheck => ?_, fun hrefused => ?_⟩
  · have hending : ending = settings.run around disk := by simp only [ending, execute, harguments]
    have hends := settings.checkEnds_run around disk hcheck
    rw [hending]
    exact ⟨fun _ => hends.alone_node?, hends.code_cases, hends.code_eq_one_iff,
      fun hsuccess _ => hends.of_report hsuccess, Settings.run_of_check hcheck⟩
  · simp only [ending, execute]
    cases harguments : Request.ofArguments arguments with
    | error => rfl
    | ok request =>
        cases request with
        | help | version => rfl
        | run settings => exact absurd harguments (hrefused settings)

open Disk in
/-- A check with pending candidates writes its document all the same. A check without them ends
    with 0, and so does the run. -/
theorem execute_of_check_samples :
    let around : Surroundings := ⟨.ofText ['/', 'w'], none, ⟨0, 0⟩, ⟨[], []⟩, false, false⟩
    let check := Path.ofText ['-', '-', 'c', 'h', 'e', 'c', 'k']
    let report := Path.ofText ['-', '-', 'r', 'e', 'p', 'o', 'r', 't', '-', 'j', 's', 'o', 'n']
    let reported :=
      execute around [check, aliasedSiteRoot, report, .ofText ['/', 'r']] (aliasedSite [])
    let quiet := execute around [check, aliasedSiteRoot] noteSite
    let real := execute around [aliasedSiteRoot] noteSite
    reported.code = 1 ∧
      (∃ document, reported.disk = (aliasedSite []).put [Utf8.encode ['r']] (.file document)) ∧
      (reported.disk.node? aliasedSitePage).map Node.alone = some (.file []) ∧
      quiet.code = 0 ∧ real.disk = noteSite ∧ real.code = 0 := by
  intro around check report reported quiet real
  let settings : Settings :=
    ⟨some aliasedSiteRoot, true, false, some (.ofText ['/', 'r']), 0, false, .auto⟩
  let settings' : Settings := ⟨some aliasedSiteRoot, true, false, none, 0, false, .auto⟩
  obtain ⟨hframe, -, hcode, hdocument, -⟩ :=
    (execute_of_check around [check, aliasedSiteRoot, report, .ofText ['/', 'r']]
      (aliasedSite [])).1 settings (by decide +kernel) rfl
  obtain ⟨-, hcases, hcode', -, hreal⟩ :=
    (execute_of_check around [check, aliasedSiteRoot] noteSite).1 settings' (by decide +kernel) rfl
  have hput : ∃ document,
      reported.disk = (aliasedSite []).put [Utf8.encode ['r']] (.file document) := by
    have hsuccess := @process_aliasedSite_succeeds settings around.program rfl
    rcases hdocument hsuccess _ rfl with hwritten | ⟨cause, herror, -⟩
    · exact ⟨_, Except.ok.inj (hwritten.symm.trans (write_aliasedSite _))⟩
    · cases (write_aliasedSite _).symm.trans herror
  have hpage : (reported.disk.node? aliasedSitePage).map Node.alone = some (.file []) := by
    refine (hframe aliasedSitePage fun path hpath => ?_).trans rfl
    obtain rfl := Option.some.inj hpath
    decide +kernel
  have hzero : quiet.code = 0 := by
    refine hcases.resolve_right fun hone => ?_
    rcases hcode'.1 hone with hfailure | hunwritable | hpending
    · exact hfailure (process_noteSite_succeeds around.program rfl rfl)
    · exact Settings.not_isUnwritable_of_unreported rfl hunwritable
    · exact not_hasPending_noteSite around.program rfl hpending
  obtain ⟨hkept, hend⟩ := hreal rfl hzero
  have hasked : Request.ofArguments [aliasedSiteRoot] =
      .ok (.run { settings' with check := false }) := by decide +kernel
  have hsame : real = ({ settings' with check := false } : Settings).run around noteSite := by
    simp only [real, execute, hasked]
  exact ⟨hcode.2 (.inr (.inr (hasPending_aliasedSite around.program rfl))), hput, hpage, hzero,
    hsame ▸ hkept, hsame ▸ hend⟩

end LicenseStamp.Command

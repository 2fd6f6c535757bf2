import LicenseStamp.Proofs.Run.Effect
import LicenseStamp.Proofs.Tree.Collected
import LicenseStamp.Proofs.Tree.Names

/-! # A file under another spelling

The file at a place below an absolute root can be processed by the path of its place, or by the
way to it from the current directory. The second path is reported as it stands, and the rule for
skipped directories looks at all names on it, which may be more or fewer than those of the place.
Apart from this the two come to the same.
-/

namespace LicenseStamp

/-- What a report tells about a file, apart from its path. -/
def FileReport.outcome (report : FileReport) : Option HeaderStyle × Action × Option Text :=
  (report.style, report.action, report.reason)

/-- Two ways to process a file that come to the same, apart from the paths that are told. -/
structure Progress.Matches (first second : Progress) : Prop where
  disk_eq : second.disk = first.disk
  isNone_eq : second.failure.isNone = first.failure.isNone
  outcomes_eq : second.reports.map FileReport.outcome = first.reports.map FileReport.outcome

theorem Progress.Matches.symm {first second : Progress} (h : first.Matches second) :
    second.Matches first :=
  ⟨h.disk_eq.symm, h.isNone_eq.symm, h.outcomes_eq.symm⟩

namespace Eligibility

variable {root path other : Path}

/-- A path is rejected for a skipped directory unless its name is skipped itself. -/
theorem classify_eq_insideSkipped_iff :
    classify root path = .rejected "Inside skip-listed directory".toList ↔
      path.fileName?.any Filter.isSkippedFileName = false ∧
        Filter.isInSkippedDir root path = true := by
  rw [classify_eq]
  cases path.fileName?.any Filter.isSkippedFileName with
  | true => simp
  | false =>
      cases Filter.isInSkippedDir root path with
      | true => simp
      | false => cases path.style? <;> simp

/-- Paths of one file name are judged alike if the name is skipped, or if both or none lie in a
    skipped directory. -/
theorem classify_congr (hname : path.fileName? = other.fileName?)
    (h : path.fileName?.any Filter.isSkippedFileName = true ∨
      Filter.isInSkippedDir root path = Filter.isInSkippedDir root other) :
    classify root path = classify root other := by
  rw [classify_eq, classify_eq, ← hname, Path.style?_of_fileName? hname]
  rcases h with hskipped | hsame
  · rw [if_pos hskipped, if_pos hskipped]
  · rw [hsame]

end Eligibility

namespace Job

variable {job : Job} {disk : Disk} {path other : Path}
  {inside place common up down location : Location} {old : Bytes} {entries : List (Bytes × Node)}

/-- A report has the reason why its file is rejected, if it is. -/
theorem Processed.reasons {after : Disk} {reports : List FileReport}
    (h : job.Processed disk path after reports none) :
    reports.map FileReport.reason =
      match Eligibility.classify job.root path with
      | .rejected reason => [some reason]
      | .candidate _ => [none] := by
  cases h with
  | skipped hclass | kept hclass | checked hclass | forgotten hclass | stamped hclass =>
      simp only [hclass, List.map_cons, List.map_nil, Decision.report]

theorem Processed.path_eq {after : Disk} {reports : List FileReport} {failure : Option Failure}
    (h : job.Processed disk path after reports failure) :
    ∀ report ∈ reports, report.path = path.relativeTo job.root := by
  intro report hreport
  cases failure with
  | some cause =>
      rw [h.of_failure.2] at hreport
      cases hreport
  | none =>
      obtain ⟨found, rfl, hfound⟩ := h.exists_report
      obtain rfl := List.mem_singleton.1 hreport
      exact hfound.1

/-- Paths of one file that are judged alike are processed alike. -/
theorem matches_of_classify (hclass : Eligibility.classify job.root path =
      Eligibility.classify job.root other) (hpath : disk.find path = .ok location)
    (hother : disk.find other = .ok location) (hold : disk.content? location = some old) :
    (job.processFile disk path).Matches (job.processFile disk other) := by
  have hdecide : job.decide disk other = job.decide disk path := by
    simp only [decide, hclass, Disk.readText_of_content? hpath hold,
      Disk.readText_of_content? hother hold]
  have hcarry : ∀ decision : Decision,
      decision.carryOut disk other = decision.carryOut disk path := by
    intro decision
    cases decision with
    | skip | keep => rfl
    | stamp style text stamped =>
        rw [Decision.carryOut, Decision.carryOut, Disk.write_of_content? hpath hold,
          Disk.write_of_content? hother hold]
  rw [processFile, processFile, hdecide]
  cases job.decide disk path with
  | error cause => exact ⟨rfl, rfl, rfl⟩
  | ok decision =>
      simp only [hcarry]
      cases (if job.check then .ok disk else decision.carryOut disk path : Except DiskError Disk) with
      | error cause => exact ⟨rfl, rfl, rfl⟩
      | ok after => exact ⟨rfl, rfl, rfl⟩

/-- Paths that are processed alike are rejected for the same reason. -/
theorem classify_of_matches {reason : Text}
    (h : (job.processFile disk path).Matches (job.processFile disk other))
    (hclass : Eligibility.classify job.root path = .rejected reason) :
    Eligibility.classify job.root other = .rejected reason := by
  obtain ⟨-, hreports, hfailure⟩ :=
    @processFile_of_unchanged _ disk _ _ (decide_of_rejected hclass) rfl
  have hstep := processed_processFile job disk other
  have hnone : (job.processFile disk other).failure = none := by
    simpa [hfailure] using h.isNone_eq
  rw [hnone] at hstep
  have houtcomes := congrArg (List.map fun outcome => outcome.2.2) h.outcomes_eq
  rw [hreports, List.map_map, List.map_map] at houtcomes
  have hreasons := hstep.reasons.symm.trans houtcomes
  cases hother : Eligibility.classify job.root other with
  | rejected found =>
      rw [hother] at hreasons
      obtain rfl : found = reason := by simpa [FileReport.outcome, Decision.report] using hreasons
      rfl
  | candidate style =>
      rw [hother] at hreasons
      simp [FileReport.outcome, Decision.report] at hreasons

/-- Two paths of one file with one name come to the same if and only if the name is skipped, or both
    or none lie in a skipped directory. -/
theorem matches_iff (hname : path.fileName? = other.fileName?)
    (hpath : disk.find path = .ok location) (hother : disk.find other = .ok location)
    (hold : disk.content? location = some old) :
    (job.processFile disk path).Matches (job.processFile disk other) ↔
      path.fileName?.any Filter.isSkippedFileName = true ∨
        Filter.isInSkippedDir job.root path = Filter.isInSkippedDir job.root other := by
  constructor
  · intro hmatches
    cases hskipped : path.fileName?.any Filter.isSkippedFileName with
    | true => exact .inl rfl
    | false =>
        have hskipped' : other.fileName?.any Filter.isSkippedFileName = false := hname ▸ hskipped
        -- a path that is rejected for a skipped directory makes the other one rejected too
        refine .inr (Bool.eq_iff_iff.2 ⟨fun hdir => ?_, fun hdir => ?_⟩)
        · have hclass := Eligibility.classify_eq_insideSkipped_iff.2 ⟨hskipped, hdir⟩
          exact (Eligibility.classify_eq_insideSkipped_iff.1
            (classify_of_matches hmatches hclass)).2
        · have hclass := Eligibility.classify_eq_insideSkipped_iff.2 ⟨hskipped', hdir⟩
          exact (Eligibility.classify_eq_insideSkipped_iff.1
            (classify_of_matches hmatches.symm hclass)).2
  · intro hsame
    exact matches_of_classify (Eligibility.classify_congr hname hsame) hpath hother hold

theorem getLast?_eq_of_append (hplace : place ≠ []) (hne : down ≠ [])
    (h : inside ++ place = common ++ down) : down.getLast? = place.getLast? := by
  have hlast := congrArg List.getLast? h
  rwa [List.getLast?_append_of_ne_nil _ hplace, List.getLast?_append_of_ne_nil _ hne,
    eq_comm] at hlast

/-- The way down to a file is not empty where the current directory lies below its start. -/
theorem down_ne_nil (hcurrent : disk.node? (common ++ up) = some (.dir entries))
    (hold : disk.content? (common ++ down) = some old) : down ≠ [] := by
  rintro rfl
  rw [List.append_nil, Disk.content?_eq_some_iff] at hold
  rw [Disk.node?, Node.get?_append] at hcurrent
  obtain ⟨node, hnode, hbelow⟩ := Option.bind_eq_some_iff.1 hcurrent
  obtain rfl := Option.some.inj (hnode.symm.trans hold)
  cases up with
  | nil => cases hbelow
  | cons => cases hbelow

/-- A file at a place below an absolute root, spelled behind the root or as the way up and down
    from the current directory. The report has the path of the place in the first case, and the
    way as it stands in the second one; they are the same only if the current directory is that
    of the root. Otherwise the two come to the same if and only if the name of the file is
    skipped, or there is a skipped directory on both ways down or on neither. -/
theorem processFile_respelled (hwf : disk.top.isWellFormed = true)
    (habs : job.root.isAbsolute = true) (hroot : disk.find job.root = .ok inside)
    (hplace : place ≠ []) (hold : disk.content? (inside ++ place) = some old)
    (hcurrent : disk.node? disk.current = some (.dir entries)) (hup : disk.current = common ++ up)
    (hdown : inside ++ place = common ++ down)
    (hnames : ∀ name ∈ inside ++ place, name.length ≤ Disk.maxName ∧ 0 ∉ name)
    (hfar : (job.root.descend place).bytes.length ≤ Disk.maxPath)
    (hnear : (Path.upDown up down).bytes.length ≤ Disk.maxPath) :
    let far := job.processFile disk (job.root.descend place)
    let near := job.processFile disk (Path.upDown up down)
    (∀ report ∈ far.reports, report.path = .ofPieces .bare place) ∧
      (∀ report ∈ near.reports, report.path = Path.upDown up down) ∧
      (Path.upDown up down = .ofPieces .bare place ↔ disk.current = inside ∧ up = []) ∧
      (far.Matches near ↔ place.getLast?.any Filter.isSkippedFileName = true ∨
        place.dropLast.any Filter.isSkippedDirName = down.dropLast.any Filter.isSkippedDirName) := by
  intro far near
  have hnode := Disk.content?_eq_some_iff.1 hold
  have hne : down ≠ [] := down_ne_nil (hup ▸ hcurrent) (hdown ▸ hold)
  have hplaceNames : ∀ name ∈ place, Bytes.isName name = true := fun name h =>
    Node.isName_of_get? hwf hnode name (List.mem_append_right _ h)
  have hdownNames : ∀ name ∈ down, Bytes.isName name = true := fun name h =>
    Node.isName_of_get? hwf hnode name (hdown ▸ List.mem_append_right _ h)
  have hbytes := Path.bytes_ne_nil_of_isAbsolute habs
  have hplain := Path.isPlain_of_mem_upDown up hdownNames
  have hlink : ∀ target, Node.file old ≠ .link target := fun target => nofun
  have hfindFar := Disk.find_descend hroot hnode hlink hplace hplaceNames
    (fun name h => hnames name (List.mem_append_right _ h)) hfar
  have hfindNear := Disk.find_upDown hcurrent hup (hdown ▸ hnode) hlink hne hdownNames
    (fun name h => hnames name (hdown ▸ List.mem_append_right _ h)) hnear
  refine ⟨fun report hreport => ?_, fun report hreport => ?_, ?_, ?_⟩
  · rw [(processed_processFile job disk _).path_eq report hreport,
      Path.relativeTo_descend hbytes hplaceNames]
  · rw [(processed_processFile job disk _).path_eq report hreport]
    exact Path.relativeTo_of_relative habs hplain (by simp [hne])
  · rw [Path.upDown_eq_ofPieces_iff hdownNames hplaceNames, hup]
    constructor
    · rintro ⟨rfl, rfl⟩
      exact ⟨(List.append_nil common).trans (List.append_cancel_right hdown).symm, rfl⟩
    · rintro ⟨hinside, rfl⟩
      rw [← hinside, List.append_nil] at hdown
      exact ⟨rfl, (List.append_cancel_left hdown).symm⟩
  · obtain ⟨name, hname⟩ : ∃ name, place.getLast? = some name :=
      Option.isSome_iff_exists.1 (by simpa using hplace)
    have hname' : down.getLast? = some name := (getLast?_eq_of_append hplace hne hdown).trans hname
    have hfileFar := Path.fileName?_descend hbytes hplaceNames hname
    have hfileNear := Path.fileName?_upDown up hdownNames hname'
    rw [matches_iff (hfileFar.trans hfileNear.symm) hfindFar (hdown ▸ hfindNear) hold, hfileFar,
      Filter.isInSkippedDir_descend hbytes hplaceNames,
      Path.isInSkippedDir_upDown up habs hdownNames hne, hname]

/-- A site below a directory with a skipped name. -/
def builtSite : Disk where
  top := .dir [
    (Utf8.encode ['d', 'i', 's', 't'], .dir [
      (Utf8.encode ['s'], .dir [(Utf8.encode ['a', '.', 'j', 's'], .file [])])])]
  current := []

/-- From the top directory the script of the site is skipped, and the report has the way to it.
    By its place in the site it is stamped. -/
theorem processFile_respelled_builtSite :
    let root := Path.ofText ['/', 'd', 'i', 's', 't', '/', 's']
    let down :=
      [Utf8.encode ['d', 'i', 's', 't'], Utf8.encode ['s'], Utf8.encode ['a', '.', 'j', 's']]
    let far := (Job.standard root false).processFile builtSite
      (root.descend [Utf8.encode ['a', '.', 'j', 's']])
    let near := (Job.standard root false).processFile builtSite (Path.upDown [] down)
    builtSite.top.isWellFormed = true ∧ root.isAbsolute = true ∧
      builtSite.find root = .ok [Utf8.encode ['d', 'i', 's', 't'], Utf8.encode ['s']] ∧
      far.reports.map FileReport.action = [.added] ∧
      near.reports.map FileReport.action = [.skipped] ∧
      (∀ report ∈ near.reports, report.path = Path.upDown [] down) ∧
      Path.upDown [] down ≠ .ofPieces .bare [Utf8.encode ['a', '.', 'j', 's']] ∧
      ¬ far.Matches near := by
  intro root down far near
  have hwf : builtSite.top.isWellFormed = true := by decide +kernel
  have habs : root.isAbsolute = true := rfl
  have hroot : builtSite.find root = .ok [Utf8.encode ['d', 'i', 's', 't'], Utf8.encode ['s']] := rfl
  have hold : builtSite.content? ([Utf8.encode ['d', 'i', 's', 't'], Utf8.encode ['s']] ++
      [Utf8.encode ['a', '.', 'j', 's']]) = some [] := rfl
  have hdown : [Utf8.encode ['d', 'i', 's', 't'], Utf8.encode ['s']] ++
      [Utf8.encode ['a', '.', 'j', 's']] = [] ++ down := rfl
  have hup : builtSite.current = [] ++ [] := rfl
  have hjob : (Job.standard root false).root.isAbsolute = true := habs
  obtain ⟨-, hpath, hsame, hmatches⟩ := processFile_respelled hwf hjob hroot
    (List.cons_ne_nil _ _) hold rfl hup hdown (by decide +kernel) (by decide +kernel)
    (by decide +kernel)
  refine ⟨hwf, habs, hroot, rfl, rfl, hpath, ?_, ?_⟩
  · intro h
    cases (hsame.1 h).1
  · exact mt hmatches.1 (by decide +kernel)

end Job

end LicenseStamp

import LicenseStamp.Proofs.Path.Reported
import LicenseStamp.Proofs.Report.Document
import LicenseStamp.Proofs.Run.Naming

/-! # Files named by a report document

The report document of a run has an entry for each file. The path of an entry is that of its file as
seen from the root, with a slash for each backslash: it names the file as long as there is no
backslash in the names on the way to it.
-/

namespace LicenseStamp

namespace Node

mutual

/-- Whether the names in a tree spell texts. -/
def namesAreTexts : Node → Bool
  | .file _ | .link _ | .device _ => true
  | .dir entries => entriesAreTexts entries

/-- Whether the names of directory entries, and all names below them, spell texts. -/
def entriesAreTexts : List (Bytes × Node) → Bool
  | [] => true
  | (name, node) :: rest =>
    (Utf8.decode? name).isSome && namesAreTexts node && entriesAreTexts rest

end

mutual

theorem namesAreTexts_eq (node : Node) :
    node.namesAreTexts = node.allNames fun name => (Utf8.decode? name).isSome := by
  cases node with
  | file | link | device => rfl
  | dir entries => exact entriesAreTexts_eq entries

theorem entriesAreTexts_eq (entries : List (Bytes × Node)) :
    entriesAreTexts entries = allEntryNames (fun name => (Utf8.decode? name).isSome) entries := by
  cases entries with
  | nil => rfl
  | cons entry rest =>
      obtain ⟨name, node⟩ := entry
      rw [entriesAreTexts, allEntryNames, namesAreTexts_eq node, entriesAreTexts_eq rest]

end

theorem isText_of_get? {tree node : Node} {location : Location} (h : tree.namesAreTexts = true)
    (hget : tree.get? location = some node) : ∀ name ∈ location, ∃ text, name = Utf8.encode text := by
  intro name hname
  rw [namesAreTexts_eq] at h
  obtain ⟨text, htext⟩ := Option.isSome_iff_exists.1 (allNames_of_get? h hget name hname)
  exact ⟨text, Utf8.decode?_eq_some_iff.1 htext⟩

end Node

namespace Disk

variable {disk : Disk} {root : Path} {places : List Location}

theorem CollectsAt.isText (h : disk.CollectsAt root places)
    (htexts : disk.top.namesAreTexts = true) {place : Location} (hplace : place ∈ places) :
    (Path.ofPieces .bare place).IsText := by
  obtain ⟨inside, node, hnode⟩ := h.exists_node place hplace
  exact Path.isText_ofPieces fun name hname =>
    Node.isText_of_get? htexts hnode name (List.mem_append_right _ hname)

/-- Written with slashes, places are distinct if none of their names holds a backslash. -/
theorem CollectsAt.nodup_slashed (h : disk.CollectsAt root places)
    (hplain : ∀ place ∈ places, ∀ name ∈ place, Path.backslash ∉ name) :
    (places.map fun place => (Path.ofPieces .bare place).slashed).Nodup := by
  refine h.nodup.map_on fun first hfirst second hsecond hsame => ?_
  have hcomponents := congrArg Path.components hsame
  rw [(Path.components_slashed_iff (h.isName first hfirst)).2 (hplain first hfirst),
    (Path.components_slashed_iff (h.isName second hsecond)).2 (hplain second hsecond)] at hcomponents
  exact (List.map_inj_right fun _ _ => Component.name.inj).1 hcomponents

end Disk

namespace Job

variable {job : Job} {disk : Disk} {asked : Path}

/-- The content of the report file of a run. -/
def document (job : Job) (disk : Disk) (elapsed : Duration) : Bytes :=
  Utf8.encode (reportDocument (job.run disk).reports (job.summary (job.run disk)) elapsed)

/-- Below a resolved root with names that spell texts, the path of an entry is that of its file with
    a slash for each backslash. It names the file if and only if no name on the way to the file holds
    a backslash; and no two entries have the same path if and only if no two files differ only in
    slashes for backslashes, so not where there are no backslashes. -/
theorem document_names_files (hwf : disk.top.isWellFormed = true)
    (htexts : disk.top.namesAreTexts = true) (hroot : disk.rootAt asked = .ok job.root)
    (hsuccess : (job.run disk).failure = none) (elapsed : Duration) :
    ∃ places entries, disk.CollectsAt job.root places ∧
      ReportEntries.read? (job.document disk elapsed) = some entries ∧
      entries.files.map (fun entry => Path.ofText entry.path) =
        places.map (fun place => (Path.ofPieces .bare place).slashed) ∧
      List.Forall₂ (fun place entry => (Path.ofText entry.path).components = place.map .name ↔
        ∀ name ∈ place, Path.backslash ∉ name) places entries.files ∧
      ((entries.files.map FileEntry.path).Nodup ↔
        (places.map fun place => (Path.ofPieces .bare place).slashed).Nodup) ∧
      ((∀ place ∈ places, ∀ name ∈ place, Path.backslash ∉ name) →
        (entries.files.map FileEntry.path).Nodup) := by
  obtain ⟨places, hplaces, hreports⟩ := exists_places_of_success hwf hroot hsuccess
  have hread := ReportEntries.read?_encode (job.run disk).reports (job.summary (job.run disk)) elapsed
  have hpaths : ((job.run disk).reports.map FileEntry.ofReport).map FileEntry.path =
      places.map fun place => (Path.ofPieces .bare place).reported := by
    have hreported := congrArg (List.map Path.reported) hreports
    rw [List.map_map, List.map_map] at hreported
    rw [List.map_map]
    exact hreported
  have hnodup : (((job.run disk).reports.map FileEntry.ofReport).map FileEntry.path).Nodup ↔
      (places.map fun place => (Path.ofPieces .bare place).slashed).Nodup := by
    rw [hpaths, List.nodup_map_iff_inj_on hplaces.nodup, List.nodup_map_iff_inj_on hplaces.nodup]
    refine forall₂_congr fun first hfirst => forall₂_congr fun second hsecond => ?_
    rw [Path.reported_eq_iff (hplaces.isText htexts hfirst) (hplaces.isText htexts hsecond)]
  have hslashed : ((job.run disk).reports.map FileEntry.ofReport).map
      (fun entry => Path.ofText entry.path) =
      places.map fun place => (Path.ofPieces .bare place).slashed := by
    rw [← List.map_congr_left fun place hplace => Path.ofText_reported (hplaces.isText htexts hplace)]
    simpa only [List.map_map, Function.comp_def] using congrArg (List.map Path.ofText) hpaths
  refine ⟨places, _, hplaces, hread, hslashed, ?_, hnodup,
    fun hplain => hnodup.2 (hplaces.nodup_slashed hplain)⟩
  have named : List.Forall₂ (fun place path => path.components = place.map .name ↔
      ∀ name ∈ place, Path.backslash ∉ name) places
      (((job.run disk).reports.map FileEntry.ofReport).map fun entry => Path.ofText entry.path) := by
    rw [hslashed, List.forall₂_map_right_iff, List.forall₂_same]
    exact fun place hplace => Path.components_slashed_iff (hplaces.isName place hplace)
  exact List.forall₂_map_right_iff.1 named

/-- A site with a file whose name holds a backslash, and a file in a directory at whose place the
    other one would be if that were a slash. -/
def backslashedSite : Disk where
  top := .dir [
    (Utf8.encode ['s'], .dir [
      (Utf8.encode ['x', '\\', 'y'], .file []),
      (Utf8.encode ['x'], .dir [(Utf8.encode ['y'], .file [])])])]
  current := []

/-- The places of the two files below the site. -/
def backslashedSitePlaces : List Location :=
  [[Utf8.encode ['x', '\\', 'y']], [Utf8.encode ['x'], Utf8.encode ['y']]]

theorem isWellFormed_backslashedSite : backslashedSite.top.isWellFormed = true := by
  decide +kernel

open Disk in
theorem collect_backslashedSite :
    backslashedSite.collect aliasedSiteRoot =
      .ok (backslashedSitePlaces.map aliasedSiteRoot.descend) := by
  have hroot : backslashedSite.find aliasedSiteRoot = .ok [Utf8.encode ['s']] := rfl
  have hlink : backslashedSite.isLink aliasedSiteRoot = false := rfl
  have hentries : backslashedSite.entries? [Utf8.encode ['s']] = some _ := rfl
  have hnode : backslashedSite.node? [Utf8.encode ['s']] = some (.dir _) := rfl
  rw [collect, walk_of_find hroot, hentries]
  simp only [walkStart, hlink, hnode, Node.walk, Walk.andThen, Walk.single, Bool.false_eq_true,
    if_false, List.nil_append, List.singleton_append]
  decide +kernel

open Disk in
theorem run_backslashedSite_succeeds (check : Bool) :
    ((standard aliasedSiteRoot check).run backslashedSite).failure = none := by
  have hreason : ∀ place ∈ backslashedSitePlaces,
      Eligibility.classify aliasedSiteRoot (aliasedSiteRoot.descend place) =
        .rejected "Unsupported extension".toList := by
    decide +kernel
  refine (run_succeeds_iff isWellFormed_backslashedSite).2 ⟨_, collect_backslashedSite, ?_⟩
  intro path hpath hcandidate
  obtain ⟨place, hplace, rfl⟩ := List.mem_map.1 hpath
  exact absurd hcandidate (not_candidate (hreason place hplace))

/-- Two entries of a document have the same path, though they are about two files. -/
theorem document_names_files_backslashedSite :
    backslashedSite.top.isWellFormed = true ∧ backslashedSite.top.namesAreTexts = true ∧
      backslashedSite.rootAt Disk.aliasedSiteRoot = .ok Disk.aliasedSiteRoot ∧
      ((standard Disk.aliasedSiteRoot false).run backslashedSite).failure = none ∧
      ∃ entries, ReportEntries.read?
          ((standard Disk.aliasedSiteRoot false).document backslashedSite ⟨0, 5⟩) = some entries ∧
        entries.files.map (fun entry => Path.ofText entry.path) =
          [.ofText ['x', '/', 'y'], .ofText ['x', '/', 'y']] ∧
        ¬ (entries.files.map FileEntry.path).Nodup := by
  have hwf := isWellFormed_backslashedSite
  have htexts : backslashedSite.top.namesAreTexts = true := by decide +kernel
  have hroot : backslashedSite.rootAt Disk.aliasedSiteRoot = .ok Disk.aliasedSiteRoot := rfl
  have hsuccess := run_backslashedSite_succeeds false
  obtain ⟨places, entries, hplaces, hread, hslashed, -, hnodup, -⟩ :=
    document_names_files hwf htexts hroot hsuccess ⟨0, 5⟩
  obtain rfl := hplaces.unique (by decide) (by decide) collect_backslashedSite
  refine ⟨hwf, htexts, hroot, hsuccess, entries, hread, hslashed.trans (by decide), fun h => ?_⟩
  exact absurd (hnodup.1 h) (by decide)

end Job

end LicenseStamp

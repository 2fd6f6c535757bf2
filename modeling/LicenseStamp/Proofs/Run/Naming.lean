import LicenseStamp.Proofs.Path.Order
import LicenseStamp.Proofs.Run.Success
import LicenseStamp.Proofs.Tree.Root

/-! # Reports name the files

Below a root that was resolved each file is reported by the names of its place. So no two reports
have the same path, joined to the root the path of a report is the path of its file, and the
changed paths are in order without repetition.
-/

namespace LicenseStamp

/-- Names of entries, at least one, and nothing else. -/
def Path.SpellsPlace (path : Path) : Prop :=
  ∃ place : Location, place ≠ [] ∧ path.components = place.map .name

namespace Job

variable {job : Job} {disk : Disk} {asked : Path}

/-- A run that succeeds reports each collected place by its names. -/
theorem exists_places_of_success (hwf : disk.top.isWellFormed = true)
    (hroot : disk.rootAt asked = .ok job.root) (hsuccess : (job.run disk).failure = none) :
    ∃ places, disk.CollectsAt job.root places ∧
      (job.run disk).reports.map FileReport.path = places.map (.ofPieces .bare) := by
  obtain ⟨files, hcollect⟩ := exists_collect_of_success hsuccess
  obtain ⟨places, hplaces, rfl⟩ := Disk.exists_collectsAt hwf hroot hcollect
  obtain ⟨⟨inside, hfind⟩, -⟩ := Disk.exists_of_collect hcollect
  have hruns := run_of_collect hcollect
  rw [hsuccess] at hruns
  have hreported := hruns.reported
  rw [hruns.length_of_success, List.take_length] at hreported
  refine ⟨places, hplaces, ?_⟩
  rw [map_path_of_reported hreported, List.map_map]
  refine List.map_congr_left fun place hplace => ?_
  exact Path.relativeTo_descend (Disk.bytes_ne_nil_of_find hfind) (hplaces.isName place hplace)

/-- Different places are reported by different components. -/
theorem nodup_components {root : Path} {places : List Location} {reports : List FileReport}
    (hplaces : disk.CollectsAt root places)
    (hreports : reports.map FileReport.path = places.map (.ofPieces .bare)) :
    ((reports.map FileReport.path).map Path.components).Nodup := by
  rw [hreports, List.map_map]
  refine hplaces.nodup.map_on ?_
  intro first hfirst second hsecond hsame
  simp only [Function.comp_apply, Path.components_ofPieces (hplaces.isName first hfirst),
    Path.components_ofPieces (hplaces.isName second hsecond)] at hsame
  exact (List.map_inj_right fun _ _ => Component.name.inj).1 hsame

/-- Each file is reported by a path of names that, joined to the root, is the path of the file. No
    two reports have the same components, and the changed paths strictly increase. -/
theorem run_names_files (hwf : disk.top.isWellFormed = true)
    (hroot : disk.rootAt asked = .ok job.root) (hsuccess : (job.run disk).failure = none) :
    ∃ files, disk.collect job.root = .ok files ∧
      List.Forall₂ (fun file report => report.path.SpellsPlace ∧ job.root.join report.path = file)
        files (job.run disk).reports ∧
      ((job.run disk).reports.map fun report => report.path.components).Nodup ∧
      (job.summary (job.run disk)).changed.Pairwise Path.Precedes := by
  obtain ⟨places, hplaces, hreports⟩ := exists_places_of_success hwf hroot hsuccess
  have hnodup := nodup_components hplaces hreports
  have hbytes : job.root.bytes ≠ [] := by
    obtain ⟨⟨inside, hfind⟩, -⟩ := Disk.exists_of_collect hplaces.collect_eq
    exact Disk.bytes_ne_nil_of_find hfind
  refine ⟨_, hplaces.collect_eq, ?_, by rwa [List.map_map] at hnodup, ?_⟩
  · have named : List.Forall₂ (fun file path => path.SpellsPlace ∧ job.root.join path = file)
        (places.map job.root.descend) ((job.run disk).reports.map FileReport.path) := by
      rw [hreports, List.forall₂_map_left_iff, List.forall₂_map_right_iff, List.forall₂_same]
      intro place hplace
      have hne := hplaces.ne_nil place hplace
      have hnames := hplaces.isName place hplace
      exact ⟨⟨place, hne, Path.components_ofPieces hnames⟩, Path.join_ofPieces hbytes hnames hne⟩
    exact List.forall₂_map_right_iff.1 named
  · refine (Path.pairwise_lt_sort ?_).imp fun h => Path.compareComponents_eq_lt_iff.1 h
    exact hnodup.sublist ((List.filter_sublist.map _).map _)

open Disk in
theorem run_names_files_aliasedSite :
    (aliasedSite []).top.isWellFormed = true ∧
      (aliasedSite []).rootAt (.ofText ['/', 's', '/', '.', '.', '/', 's', '/', '.']) =
        .ok aliasedSiteRoot ∧
      ((standard aliasedSiteRoot false).run (aliasedSite [])).failure = none ∧
      let reports := ((standard aliasedSiteRoot false).run (aliasedSite [])).reports
      List.Forall₂ (fun file report =>
        report.path.SpellsPlace ∧ aliasedSiteRoot.join report.path = file)
        aliasedSiteFiles reports ∧
      (reports.map fun report => report.path.components).Nodup ∧
      ((standard aliasedSiteRoot false).summary
        ((standard aliasedSiteRoot false).run (aliasedSite []))).changed.Pairwise Path.Precedes := by
  have hroot : (aliasedSite []).rootAt (.ofText ['/', 's', '/', '.', '.', '/', 's', '/', '.']) =
      .ok aliasedSiteRoot := by decide +kernel
  have hsuccess := run_aliasedSite_succeeds false
  obtain ⟨files, hcollect, hnamed, hnodup, hchanged⟩ :=
    run_names_files (isWellFormed_aliasedSite []) hroot hsuccess
  obtain rfl := Except.ok.inj (hcollect.symm.trans (collect_aliasedSite []))
  exact ⟨isWellFormed_aliasedSite [], hroot, hsuccess, hnamed, hnodup, hchanged⟩

end Job

end LicenseStamp

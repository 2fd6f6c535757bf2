import LicenseStamp.Proofs.Run.Effect
import LicenseStamp.Proofs.Tree.Collected

/-! # A run stays inside its root

However the root is spelled and whatever links there are, a run changes no file outside the
location of its root.
-/

namespace LicenseStamp

namespace Job

variable {job : Job} {disk : Disk} {location : Location}

theorem shape_run (job : Job) (disk : Disk) : (job.run disk).disk.shape = disk.shape := by
  cases hcollect : disk.collect job.root with
  | error cause => rw [(run_of_error hcollect).1]
  | ok files => exact (run_of_collect hcollect).shape_eq

theorem isWellFormed_run (job : Job) (disk : Disk) :
    (job.run disk).disk.top.isWellFormed = disk.top.isWellFormed := by
  have hshape : (job.run disk).disk.top.shape = disk.top.shape :=
    congrArg Disk.top (shape_run job disk)
  rw [← Node.isWellFormed_shape, hshape, Node.isWellFormed_shape]

/-- What a run changes, it collected, processed and found without the header. -/
theorem run_changed (h : (job.run disk).disk.content? location ≠ disk.content? location) :
    ∃ files, disk.collect job.root = .ok files ∧
      (∃ path ∈ files.take (job.run disk).reports.length,
        job.Candidate path ∧ disk.find path = .ok location) ∧
      (∃ old, disk.content? location = some old ∧ job.Misses old) ∧ job.check = false := by
  cases hcollect : disk.collect job.root with
  | error cause =>
      rw [(run_of_error hcollect).1] at h
      exact absurd rfl h
  | ok files => exact ⟨files, rfl, (run_of_collect hcollect).of_changed h⟩

/-- A run leaves the shape of the tree alone and changes files at or below the location of its
    root only. That location is the one the root resolves to, if it resolves. -/
theorem run_changes_inside (job : Job) {disk : Disk} (hwf : disk.top.isWellFormed = true) :
    (job.run disk).disk.shape = disk.shape ∧
      ∀ location, (job.run disk).disk.content? location ≠ disk.content? location →
        ∃ inside, disk.find job.root = .ok inside ∧ inside <+: location ∧
          ∀ resolved, disk.resolve job.root = .ok resolved → resolved = inside := by
  refine ⟨shape_run job disk, fun location hchanged => ?_⟩
  obtain ⟨files, hcollect, ⟨path, hpath, -, hfind⟩, -, -⟩ := run_changed hchanged
  have hcollected := Disk.collected_of_mem_collect hwf hcollect (List.mem_of_mem_take hpath)
  obtain ⟨⟨inside, hroot, hinside⟩, -⟩ := hcollected.inside hwf hfind
  refine ⟨inside, hroot, hinside, fun resolved hresolve => ?_⟩
  exact (Disk.find_eq_resolve hroot hresolve).symm

open Disk in
/-- A run on the site leaves the script beside it alone. -/
theorem run_keeps_script_beside : linkedSite.top.isWellFormed = true ∧
    ((Job.standard linkedSiteRoot false).run linkedSite).disk.content?
      [Utf8.encode ['o', '.', 'j', 's']] = some [] := by
  refine ⟨isWellFormed_linkedSite, ?_⟩
  have hold : linkedSite.content? [Utf8.encode ['o', '.', 'j', 's']] = some [] := rfl
  by_contra hchanged
  rw [← hold] at hchanged
  obtain ⟨inside, hroot, hinside, -⟩ :=
    (run_changes_inside (Job.standard linkedSiteRoot false) isWellFormed_linkedSite).2 _ hchanged
  have hsite : linkedSite.find linkedSiteRoot = .ok [Utf8.encode ['s']] := rfl
  obtain rfl := Except.ok.inj (hsite.symm.trans hroot)
  revert hinside
  decide +kernel

end Job

end LicenseStamp

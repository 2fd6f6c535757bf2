import LicenseStamp.Proofs.Run.Effect
import LicenseStamp.Proofs.Tree.Collected

/-! # When a run succeeds

A step fails if it cannot read its file as a text, or would have to write the running program.
No step makes another one fail or succeed, so the disk before a run tells whether it succeeds.
-/

namespace LicenseStamp

namespace Disk

/-- A path that leads to a regular file if it leads anywhere. -/
def LeadsToFile (disk : Disk) (path : Path) : Prop :=
  ∀ location, disk.find path = .ok location → ∃ content, disk.content? location = some content

theorem LeadsToFile.of_shape {before after : Disk} {path : Path} (h : before.LeadsToFile path)
    (hshape : after.shape = before.shape) : after.LeadsToFile path := by
  intro location hfind
  rw [find_of_shape hshape] at hfind
  exact (exists_content?_of_shape hshape location).2 (h location hfind)

theorem leadsToFile_of_mem_collect {disk : Disk} (hwf : disk.top.isWellFormed = true)
    {root path : Path} {files : List Path} (h : disk.collect root = .ok files)
    (hpath : path ∈ files) : disk.LeadsToFile path :=
  fun _ hfind => ((collected_of_mem_collect hwf h hpath).inside hwf hfind).2

end Disk

namespace Job

variable {job : Job} {disk after : Disk} {path other : Path} {location : Location}
  {files : List Path} {reports : List FileReport} {failure : Option Failure}

/-- A file that can be read as a text, and is not the running program if it is to be written. -/
def CanStamp (job : Job) (disk : Disk) (location : Location) : Prop :=
  ∃ content text, disk.content? location = some content ∧ content.readText = .ok text ∧
    (disk.running = some location → job.licensed text = true ∨ job.check = true)

/-- A path that is no candidate, or leads to a file that can be stamped. -/
def CanProcess (job : Job) (disk : Disk) (path : Path) : Prop :=
  job.Candidate path → ∃ location, disk.find path = .ok location ∧ job.CanStamp disk location

namespace Processed

theorem failure_eq_none (h : job.Processed disk path after reports failure)
    (hcan : job.CanProcess disk path) : failure = none := by
  cases h with
  | skipped | kept | checked | forgotten | stamped => rfl
  | unread hclass hread =>
      obtain ⟨location, hfind, content, text, hcontent, htext, -⟩ := hcan (.of_classify hclass)
      rw [Disk.readText_of_content? hfind hcontent, htext] at hread
      cases hread
  | unwritten hclass hread hlicensed hcheck hwrite =>
      obtain ⟨location, hfind, content, text, hcontent, htext, hbusy⟩ := hcan (.of_classify hclass)
      rw [Disk.readText_of_content? hfind hcontent, htext] at hread
      obtain rfl := Except.ok.inj hread
      rw [Disk.write_of_content? hfind hcontent] at hwrite
      split at hwrite
      next hrunning =>
        rcases hbusy hrunning with hkept | hchecks
        · rw [hlicensed] at hkept
          cases hkept
        · rw [hcheck] at hchecks
          cases hchecks
      · cases hwrite

theorem canProcess (h : job.Processed disk path after reports none)
    (hfile : disk.LeadsToFile path) : job.CanProcess disk path := by
  intro hcand
  obtain ⟨location, hfind⟩ := h.exists_find hcand
  obtain ⟨content, hcontent⟩ := hfile location hfind
  have hread := Disk.readText_of_content? hfind hcontent
  refine ⟨location, hfind, ?_⟩
  cases h with
  | skipped hclass => exact absurd hcand (not_candidate hclass)
  | kept _ htext hlicensed =>
      exact ⟨content, _, hcontent, hread.symm.trans htext, fun _ => .inl hlicensed⟩
  | checked _ htext _ hcheck =>
      exact ⟨content, _, hcontent, hread.symm.trans htext, fun _ => .inr hcheck⟩
  | forgotten _ hdevice hnode =>
      obtain rfl := Except.ok.inj (hfind.symm.trans hdevice)
      rw [Disk.content?_eq_some_iff.1 hcontent] at hnode
      cases hnode
  | stamped _ hfile hold htext _ _ hidle =>
      obtain rfl := Except.ok.inj (hfind.symm.trans hfile)
      exact ⟨_, _, hold, htext, fun hrunning => absurd hrunning hidle⟩

theorem leadsToFile_rest {rest : List Path} (h : job.Processed disk path after reports failure)
    (hfiles : ∀ file ∈ path :: rest, disk.LeadsToFile file) :
    ∀ file ∈ rest, after.LeadsToFile file :=
  fun file hfile => (hfiles file (List.mem_cons_of_mem _ hfile)).of_shape h.shape_eq

/-- A step neither helps nor harms the others. -/
theorem canStamp_iff (h : job.Processed disk other after reports failure) :
    job.CanStamp after location ↔ job.CanStamp disk location := by
  have hrunning := Disk.running_of_shape h.shape_eq
  by_cases hsame : after.content? location = disk.content? location
  · simp only [CanStamp, hsame, hrunning]
  · have hstamps := h.stamps_of_changed hsame
    obtain ⟨old, hold, text, htext, -⟩ := hstamps.misses
    obtain ⟨style, base, hnew⟩ := hstamps.written
    refine ⟨fun _ => ?_, fun _ => ?_⟩
    · exact ⟨old, text, hold, htext, fun hbusy => absurd hbusy hstamps.idle⟩
    · exact ⟨_, _, hnew, readText_encode _, fun hbusy =>
        absurd (hrunning.symm.trans hbusy) hstamps.idle⟩

theorem canProcess_iff (h : job.Processed disk other after reports failure) :
    job.CanProcess after path ↔ job.CanProcess disk path := by
  simp only [CanProcess, Disk.find_of_shape h.shape_eq, h.canStamp_iff]

end Processed

theorem Runs.failure_eq_none_iff (h : job.Runs disk files after reports failure)
    (hfiles : ∀ path ∈ files, disk.LeadsToFile path) :
    failure = none ↔ ∀ path ∈ files, job.CanProcess disk path := by
  induction h with
  | done => simp
  | stopped hstep =>
      refine ⟨nofun, fun hcan => ?_⟩
      exact hstep.failure_eq_none (hcan _ List.mem_cons_self)
  | next hstep _ ih =>
      rw [ih (hstep.leadsToFile_rest hfiles), List.forall_mem_cons]
      simp only [hstep.canProcess_iff, hstep.canProcess (hfiles _ List.mem_cons_self), true_and]

/-- A run succeeds if and only if its walk does not break off and each file that it collects can
    be processed as the disk stands before the run. -/
theorem run_succeeds_iff (hwf : disk.top.isWellFormed = true) :
    (job.run disk).failure = none ↔
      ∃ files, disk.collect job.root = .ok files ∧ ∀ path ∈ files, job.CanProcess disk path := by
  cases hcollect : disk.collect job.root with
  | error cause => simp [(run_of_error hcollect).2]
  | ok files =>
      have hruns := run_of_collect hcollect
      rw [hruns.failure_eq_none_iff fun path hpath =>
        Disk.leadsToFile_of_mem_collect hwf hcollect hpath]
      simp

open Disk in
theorem run_linkedSite_succeeds (check : Bool) :
    ((Job.standard linkedSiteRoot check).run linkedSite).failure = none := by
  refine (run_succeeds_iff isWellFormed_linkedSite).2 ⟨_, collect_linkedSite, ?_⟩
  have canStamp : ∀ location, linkedSite.content? location = some [] →
      (Job.standard linkedSiteRoot check).CanStamp linkedSite location :=
    fun _ hcontent => ⟨[], [], hcontent, rfl, nofun⟩
  intro path hpath _
  rcases List.mem_pair.1 hpath with rfl | rfl
  · exact ⟨[Utf8.encode ['s'], Utf8.encode ['a', '.', 'j', 's']], rfl,
      canStamp _ rfl⟩
  · exact ⟨linkedSiteGoal, find_linkedSite_link, canStamp _ content?_linkedSiteGoal⟩

open Disk in
theorem canProcess_aliasedSite (check : Bool) {path : Path} (hpath : path ∈ aliasedSiteFiles) :
    (Job.standard aliasedSiteRoot check).CanProcess (aliasedSite []) path := by
  obtain ⟨hscript, hlink, hpage⟩ := find_aliasedSite []
  obtain ⟨hold, hold'⟩ := content?_aliasedSite []
  intro _
  simp only [aliasedSiteFiles, List.mem_cons, List.not_mem_nil, or_false] at hpath
  rcases hpath with rfl | rfl | rfl
  · exact ⟨_, hscript, [], [], hold, rfl, nofun⟩
  · exact ⟨_, hlink, [], [], hold, rfl, nofun⟩
  · exact ⟨_, hpage, [], [], hold', rfl, nofun⟩

open Disk in
theorem run_aliasedSite_succeeds (check : Bool) :
    ((Job.standard aliasedSiteRoot check).run (aliasedSite [])).failure = none :=
  (run_succeeds_iff (isWellFormed_aliasedSite [])).2
    ⟨_, collect_aliasedSite [], fun _ => canProcess_aliasedSite check⟩

end Job

end LicenseStamp

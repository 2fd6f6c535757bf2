import LicenseStamp.Proofs.Run.Containment
import LicenseStamp.Proofs.Run.Success

/-! # What the skip rules protect

The skip rules look at the path under which a file is collected. A file that they protect by
its own location is never collected by that location, but a link with a harmless name may lead
to it, and is collected. Such links are the only way to change a protected file.
-/

namespace LicenseStamp

/-- Whether the skip rules protect the file at a place below a root: by its name, by a directory
    on the way, or by an extension that asks for no header. -/
def Location.isProtected (place : Location) : Bool :=
  place.getLast?.any Filter.isSkippedFileName || place.dropLast.any Filter.isSkippedDirName
    || (((place.getLast?.bind Path.extensionOf?).bind Utf8.decode?).bind
      HeaderStyle.ofExtension?).isNone

namespace Eligibility

variable {root path : Path} {style : HeaderStyle}

theorem of_classify_candidate (h : classify root path = .candidate style) :
    path.fileName?.any Filter.isSkippedFileName = false ∧ path.style? = some style := by
  simp only [classify, rules, Filter.judge, Filter.judgeAll, Filter.skipFile, Filter.skipDir] at h
  cases hname : path.fileName?.any Filter.isSkippedFileName with
  | true => simp [hname] at h
  | false =>
      refine ⟨rfl, ?_⟩
      cases hdir : Filter.isInSkippedDir root path with
      | true => simp [hname, hdir] at h
      | false =>
          simp only [hname, hdir, Bool.false_eq_true, if_false] at h
          split at h
          next found hfound => rw [hfound, candidate.inj h]
          · cases h

end Eligibility

namespace Job

variable {job : Job} {disk : Disk} {inside place : Location} {entries : List (Bytes × Node)}

/-- A candidate that the walk sees as a file is not protected. -/
theorem isProtected_eq_false_of_sees (hentries : Node.areWellFormed entries = true)
    (hbytes : job.root.bytes ≠ []) (hsees : Node.Sees entries place .file)
    (hcand : job.Candidate (job.root.descend place)) : place.isProtected = false := by
  obtain ⟨style, hclass⟩ := hcand
  obtain ⟨hskipped, hstyle⟩ := Eligibility.of_classify_candidate hclass
  obtain ⟨name, hname⟩ : ∃ name, place.getLast? = some name :=
    Option.isSome_iff_exists.1 (by simpa using hsees.ne_nil)
  have hfile := Path.fileName?_descend hbytes (hsees.isName hentries) hname
  have hdirs : place.dropLast.any Filter.isSkippedDirName = false := by
    rw [List.any_eq_false]
    intro other hother
    rw [hsees.isSkippedDirName_eq_false other hother]
    exact Bool.false_ne_true
  rw [hfile] at hskipped
  rw [Path.style?, Path.extension?, hfile] at hstyle
  simp only [Location.isProtected, hname, hskipped, hdirs, hstyle, Option.isNone_some, Bool.or_self]

/-- A link below the root by which a run stamps the file at a place below the root: the run
    comes to the link, the link may lead to a stamped file, and this file misses the header. -/
structure StampsByLink (job : Job) (disk : Disk) (inside place : Location) (processed : List Path)
    (name : Location) : Prop where
  isLink : ∃ target, disk.node? (inside ++ name) = some (.link target)
  processed : job.root.descend name ∈ processed
  candidate : job.Candidate (job.root.descend name)
  find : disk.find (job.root.descend name) = .ok (inside ++ place)
  misses : ∃ old, disk.content? (inside ++ place) = some old ∧ job.Misses old
  check : job.check = false

/-- A run changes a protected file only by a link below the root, and if the job finds the header
    in what it stamps each such link that the run comes to does change the file. -/
theorem run_changes_protected (job : Job) (hwf : disk.top.isWellFormed = true)
    (hroot : disk.find job.root = .ok inside) (hdir : disk.node? inside = some (.dir entries))
    (hprotected : place.isProtected = true) :
    let done := job.run disk
    let ByLink := ∃ files name, disk.collect job.root = .ok files ∧
      job.StampsByLink disk inside place (files.take done.reports.length) name
    (done.disk.content? (inside ++ place) ≠ disk.content? (inside ++ place) → ByLink) ∧
      (job.AcceptsStamps → ByLink →
        done.disk.content? (inside ++ place) ≠ disk.content? (inside ++ place)) := by
  refine ⟨fun hchanged => ?_, ?_⟩
  · obtain ⟨files, hcollect, ⟨path, hpath, hcand, hfind⟩, hmisses, hcheck⟩ := run_changed hchanged
    have hentries : Node.areWellFormed entries = true := Node.isWellFormed_of_get? hwf hdir
    cases Disk.collected_of_mem_collect hwf hcollect (List.mem_of_mem_take hpath) with
    | start hstart hcontent =>
        obtain rfl := Except.ok.inj (hroot.symm.trans hstart)
        rw [Disk.content?_eq_some_iff, hdir] at hcontent
        cases hcontent
    | file hstart hopened hsees =>
        obtain rfl := Except.ok.inj (hroot.symm.trans hstart)
        obtain rfl := Node.dir.inj (Option.some.inj (hdir.symm.trans hopened))
        obtain ⟨hplace, -⟩ := Disk.find_descend_of_sees_file hwf hroot hdir hsees hfind
        obtain rfl := List.append_cancel_left hplace
        rw [isProtected_eq_false_of_sees hentries (Disk.bytes_ne_nil_of_find hroot) hsees hcand]
          at hprotected
        cases hprotected
    | @link _ name _ _ _ hstart hopened hsees _ _ _ =>
        obtain rfl := Except.ok.inj (hroot.symm.trans hstart)
        obtain rfl := Node.dir.inj (Option.some.inj (hdir.symm.trans hopened))
        obtain ⟨node, hlink, hshows⟩ := Disk.exists_node?_of_sees hdir hsees
        cases hshows with
        | link target =>
            exact ⟨files, name, hcollect, ⟨target, hlink⟩, hpath, hcand, hfind, hmisses, hcheck⟩
  · rintro hstamps ⟨files, name, hcollect, hlink⟩
    rw [(run_of_collect hcollect).changed_iff hstamps]
    exact ⟨⟨_, hlink.processed, hlink.candidate, hlink.find⟩, hlink.misses, hlink.check⟩

open Disk in
/-- A run on the site stamps the built script through the link to it, though the script lies in a
    directory that is never entered. -/
theorem run_stamps_built_script :
    linkedSite.find linkedSiteRoot = .ok [Utf8.encode ['s']] ∧
      Location.isProtected [Utf8.encode ['d', 'i', 's', 't'], Utf8.encode ['z', '.', 'j', 's']] =
        true ∧
      ((Job.standard linkedSiteRoot false).run linkedSite).disk.content? linkedSiteGoal ≠
        linkedSite.content? linkedSiteGoal := by
  have hroot : linkedSite.find linkedSiteRoot = .ok [Utf8.encode ['s']] := rfl
  have hprotected : Location.isProtected
      [Utf8.encode ['d', 'i', 's', 't'], Utf8.encode ['z', '.', 'j', 's']] = true := rfl
  refine ⟨hroot, hprotected, ?_⟩
  have hruns := @run_of_collect (Job.standard linkedSiteRoot false) _ _ collect_linkedSite
  rw [run_linkedSite_succeeds false] at hruns
  refine (run_changes_protected (Job.standard linkedSiteRoot false) isWellFormed_linkedSite hroot
    rfl hprotected).2 (acceptsStamps_standard _ _)
    ⟨_, [Utf8.encode ['b', '.', 'j', 's']], collect_linkedSite, ?_⟩
  rw [hruns.length_of_success, List.take_length]
  exact {
    isLink := ⟨_, rfl⟩
    processed := List.mem_cons_of_mem _ List.mem_cons_self
    candidate := ⟨.code, rfl⟩
    find := find_linkedSite_link
    misses := ⟨[], content?_linkedSiteGoal, [], rfl, rfl⟩
    check := rfl }

end Job

end LicenseStamp

import LicenseStamp.Proofs.Path.Joined
import LicenseStamp.Proofs.Selection.Pruning
import LicenseStamp.Proofs.Tree.Limits
import LicenseStamp.Proofs.Tree.Names
import LicenseStamp.Run.Root

/-! # Roots

The root of a run is the location of a directory, spelled without links. So it leads to that
directory if it can be found, and what a walk of it collects are places below the directory.
-/

namespace LicenseStamp.Disk

variable {disk : Disk} {asked root : Path} {inside other : Location}
  {entries : List (Bytes × Node)}

theorem exists_of_rootAt (h : disk.rootAt asked = .ok root) :
    ∃ inside, disk.resolve asked = .ok inside ∧ root = inside.path ∧ disk.isDir root = true := by
  unfold rootAt at h
  split at h
  · cases h
  next inside hinside =>
    split at h
    next hdir =>
      obtain rfl := Except.ok.inj h
      exact ⟨inside, hinside, rfl, hdir⟩
    · cases h

theorem exists_of_isDir (h : disk.isDir root = true) :
    ∃ inside, disk.find root = .ok inside ∧ (disk.entries? inside).isSome := by
  unfold isDir at h
  split at h
  next inside hinside => exact ⟨inside, hinside, h⟩
  · cases h

/-- The root of a run leads to a directory. -/
theorem exists_dir_of_rootAt (h : disk.rootAt asked = .ok root) :
    ∃ inside entries, disk.find root = .ok inside ∧ disk.node? inside = some (.dir entries) := by
  obtain ⟨location, -, rfl, hdir⟩ := exists_of_rootAt h
  obtain ⟨inside, hfind, hentries⟩ := exists_of_isDir hdir
  have hreal : disk.IsReal inside := (leadsTo_of_find hfind).isReal fun hrelative => by
    rw [Location.isAbsolute_path] at hrelative
    cases hrelative
  obtain ⟨entries, hnode⟩ := hreal.exists_dir hentries
  exact ⟨inside, entries, hfind, hnode⟩

theorem find_top (hdir : disk.entries? [] = some entries) :
    disk.find ⟨[Path.slash]⟩ = .ok [] := by
  have hsteps : Path.steps ⟨[Path.slash]⟩ = [.slash] := by decide
  have hwalk : disk.walkTo .use [] [.slash] = .ended (.found []) := by
    simp only [walkTo, hdir]
  have hfollow : disk.follow .use maxLinks [] [.slash] = .ok (.found []) := by
    rw [follow, hwalk]
  refine find_of_follow (by decide) (List.cons_ne_nil _ _) (by decide) ?_
  rw [hsteps]
  exact hfollow

/-- The path of a real node leads to that node. -/
theorem eq_of_find_path (hwf : disk.top.isWellFormed = true) (hreal : disk.IsReal inside)
    (h : disk.find inside.path = .ok other) : other = inside := by
  obtain ⟨node, hnode, hlink⟩ := hreal
  have hnames := Node.isName_of_get? hwf hnode
  rw [Location.path_eq_descend hnames] at h
  by_cases hne : inside = []
  · subst hne
    have hway := leadsTo_of_find h
    simp only [Path.descend, LeadsTo] at hway
    cases hway.slash_inv.2
    rfl
  · obtain ⟨name, rest, rfl⟩ := List.exists_cons_of_ne_nil hne
    obtain ⟨above, next, htop, -, -⟩ := Node.get?_cons_eq_some_iff.1 hnode
    have hroot : disk.entries? [] = some above := by rw [entries?, node?, htop, Node.get?]
    have hway := leads_of_descend (find_top hroot) hne hnames (leadsTo_of_find h)
    exact hway.unique (leads_place hnode hlink)

/-- What is in sight of a root lies at a place below it. -/
theorem IsInSight.exists_place {path : Path} (h : disk.IsInSight root inside path) :
    ∃ place : Location, place ≠ [] ∧ path = root.descend place ∧
      ∃ node, disk.node? (inside ++ place) = some node := by
  obtain ⟨above, name, -, hpath, hshown⟩ := h
  refine ⟨above ++ [name], by simp, hpath, ?_⟩
  rcases hshown with ⟨content, hcontent⟩ | ⟨⟨target, hlink⟩, -⟩
  · exact ⟨_, content?_eq_some_iff.1 hcontent⟩
  · exact ⟨_, hlink⟩

/-- The places of the files that a walk of a root collects. -/
structure CollectsAt (disk : Disk) (root : Path) (places : List Location) : Prop where
  collect_eq : disk.collect root = .ok (places.map root.descend)
  nodup : places.Nodup
  ne_nil : ∀ place ∈ places, place ≠ []
  isName : ∀ place ∈ places, ∀ name ∈ place, Bytes.isName name = true
  exists_node : ∀ place ∈ places, ∃ inside node, disk.node? (inside ++ place) = some node

/-- The collected files tell their places. -/
theorem CollectsAt.unique {places others : List Location} (h : disk.CollectsAt root places)
    (hroot : root.bytes ≠ []) (hnames : ∀ place ∈ others, ∀ name ∈ place, Bytes.isName name = true)
    (hcollect : disk.collect root = .ok (others.map root.descend)) : places = others := by
  have hsame : places.map root.descend = others.map root.descend :=
    Except.ok.inj (h.collect_eq.symm.trans hcollect)
  have hplaces := h.isName
  clear h hcollect
  induction places generalizing others with
  | nil => exact (List.map_eq_nil_iff.1 hsame.symm).symm
  | cons place rest ih =>
      obtain ⟨other, more, rfl, hfirst, hrest⟩ := List.map_eq_cons_iff.1 hsame.symm
      obtain ⟨hother, hmore⟩ := List.forall_mem_cons.1 hnames
      obtain ⟨hplace, hlater⟩ := List.forall_mem_cons.1 hplaces
      rw [Path.descend_inj hroot hplace hother hfirst.symm, ih hmore hrest.symm hlater]

/-- A walk of a root collects files at places below it, no place twice. -/
theorem exists_collectsAt (hwf : disk.top.isWellFormed = true) (hroot : disk.rootAt asked = .ok root)
    {files : List Path} (hcollect : disk.collect root = .ok files) :
    ∃ places, disk.CollectsAt root places ∧ files = places.map root.descend := by
  obtain ⟨found, entries, hfind, hdir⟩ := exists_dir_of_rootAt hroot
  obtain ⟨-, hfiles⟩ := exists_of_collect hcollect
  let visits := (disk.walk root).visits.filter (disk.collects root)
  have hvisits : visits.Sublist (disk.walk root).visits := List.filter_sublist
  have hnames : ∀ place ∈ visits.map Visit.place, ∀ name ∈ place, Bytes.isName name = true := by
    intro place hplace
    obtain ⟨visit, hvisit, rfl⟩ := List.mem_map.1 hplace
    exact isName_of_mem_walk hwf hfind (hvisits.subset hvisit)
  have hplaces : files = (visits.map Visit.place).map root.descend := by
    rw [hfiles, List.map_map]
    rfl
  have hsight : ∀ place ∈ visits.map Visit.place,
      place ≠ [] ∧ ∃ node, disk.node? (found ++ place) = some node := by
    intro place hplace
    have hmem : root.descend place ∈ files := by
      rw [hplaces]
      exact List.mem_map_of_mem hplace
    obtain ⟨other, hne, hsame, node, hnode⟩ := (isInSight_of_collected hfind hdir
      (collected_of_mem_collect hwf hcollect hmem)).exists_place
    rw [Path.descend_inj (bytes_ne_nil_of_find hfind) (hnames place hplace)
      (isName_of_node? hwf hnode) hsame]
    exact ⟨hne, node, hnode⟩
  exact ⟨visits.map Visit.place,
    ⟨hplaces ▸ hcollect, (nodup_places_walk hwf hfind).sublist (hvisits.map _),
      fun place hplace => (hsight place hplace).1, hnames,
      fun place hplace => ⟨found, (hsight place hplace).2⟩⟩, hplaces⟩

end LicenseStamp.Disk

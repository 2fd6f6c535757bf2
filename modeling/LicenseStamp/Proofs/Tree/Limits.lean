import LicenseStamp.Proofs.Path.Spelling
import LicenseStamp.Proofs.Tree.Leads

/-! # Where steps lead within the limits of the system

To find the full path of a location, each entry on the way is asked for by its own path, and
forty links are followed at most. A relation of its own knows these limits: a path stands for a
location exactly if its steps lead there within them.
-/

namespace LicenseStamp

namespace Disk

variable {disk : Disk} {here goal : Location} {steps : List Step} {links : Nat}

/-- An entry that can be asked for: its name and its own path are short enough. -/
structure Admits (here : Location) (name : Bytes) : Prop where
  name_le : name.length ≤ maxName
  path_le : (Location.path (here ++ [name])).bytes.length ≤ maxPath

/-- Steps lead from one location to another as in `Leads`, but over at most so many links and by
    entries that can be asked for. -/
inductive LeadsWithin (disk : Disk) : Nat → Location → List Step → Location → Prop where
  | arrived {links : Nat} {here : Location} : LeadsWithin disk links here [] here
  | slash {links : Nat} {here goal : Location} {rest : List Step}
      (hdir : (disk.entries? here).isSome) (onward : LeadsWithin disk links here rest goal) :
      LeadsWithin disk links here (.slash :: rest) goal
  | stay {links : Nat} {here goal : Location} {rest : List Step}
      (hdir : (disk.entries? here).isSome) (onward : LeadsWithin disk links here rest goal) :
      LeadsWithin disk links here (.stay :: rest) goal
  | up {links : Nat} {here goal : Location} {rest : List Step}
      (hdir : (disk.entries? here).isSome)
      (onward : LeadsWithin disk links here.dropLast rest goal) :
      LeadsWithin disk links here (.up :: rest) goal
  | enter {links : Nat} {here goal : Location} {name : Bytes} {rest : List Step}
      {entries : List (Bytes × Node)} {node : Node} (hdir : disk.entries? here = some entries)
      (hentry : entries.lookup name = some node) (hnode : ∀ target, node ≠ .link target)
      (hfits : Admits here name) (onward : LeadsWithin disk links (here ++ [name]) rest goal) :
      LeadsWithin disk links here (.enter name :: rest) goal
  /-- The name of a link leads where the target of the link does, over one link less. -/
  | link {links : Nat} {here goal : Location} {name : Bytes} {rest : List Step}
      {entries : List (Bytes × Node)} {target : Path} (hdir : disk.entries? here = some entries)
      (hentry : entries.lookup name = some (.link target)) (hfits : Admits here name)
      (onward : LeadsWithin disk links (startOf here target) (target.steps ++ rest) goal) :
      LeadsWithin disk (links + 1) here (.enter name :: rest) goal

/-- Without the limits, the steps lead there all the more. -/
theorem LeadsWithin.leads (way : disk.LeadsWithin links here steps goal) :
    disk.Leads here steps goal := by
  induction way with
  | arrived => exact .arrived
  | slash hdir _ ih => exact .slash hdir ih
  | stay hdir _ ih => exact .stay hdir ih
  | up hdir _ ih => exact .up hdir ih
  | enter hdir hentry hnode _ _ ih => exact .enter hdir hentry hnode ih
  | link hdir hentry _ _ ih => exact .link hdir hentry ih

theorem node?_of_lookup {entries : List (Bytes × Node)} {name : Bytes} {node : Node}
    (hdir : disk.entries? here = some entries) (hentry : entries.lookup name = some node) :
    disk.node? here = some (.dir entries) := by
  unfold entries? at hdir
  split at hdir
  · obtain rfl := Option.some.inj hdir
    cases hentry
  next others hhere => rw [hhere, Option.some.inj hdir]
  · cases hdir

theorem admits_iff {entries : List (Bytes × Node)} {name : Bytes} {node : Node}
    (hdir : disk.entries? here = some entries) (hentry : entries.lookup name = some node) :
    Admits here name ↔ disk.isTooLong .resolve here name = false := by
  simp only [isTooLong, node?_of_lookup hdir hentry, Option.isSome_some, Bool.true_and,
    Bool.or_eq_false_iff, beq_self_eq_true, decide_eq_false_iff_not, Nat.not_lt]
  exact ⟨fun h => ⟨h.name_le, h.path_le⟩, fun h => ⟨h.1, h.2⟩⟩

/-! ## Following steps keeps the limits -/

theorem leadsWithin_of_walkTo
    (h : match disk.walkTo .resolve here steps with
      | .ended destination => destination = .found goal
      | .link parent target rest => ∃ fewer, links = fewer + 1 ∧
        disk.LeadsWithin fewer (startOf parent target) (target.steps ++ rest) goal) :
    disk.LeadsWithin links here steps goal := by
  fun_induction Disk.walkTo disk .resolve here steps with
  | case1 here =>
      cases h
      exact .arrived
  | case2 | case6 | case7 | case8 => cases h
  | case3 here rest entries hdir ih => exact .slash (by simp [hdir]) (ih h)
  | case4 here rest entries hdir ih => exact .stay (by simp [hdir]) (ih h)
  | case5 here rest entries hdir ih => exact .up (by simp [hdir]) (ih h)
  | case9 here rest entries hdir name _ _ target hentry hlink => cases hlink
  | case10 here rest entries hdir name _ hshort target hentry _ =>
      obtain ⟨fewer, rfl, onward⟩ := h
      exact .link hdir hentry ((admits_iff hdir hentry).2 (Bool.eq_false_iff.2 hshort)) onward
  | case11 here rest entries hdir name _ hshort node hnode hentry ih =>
      exact .enter hdir hentry hnode ((admits_iff hdir hentry).2 (Bool.eq_false_iff.2 hshort))
        (ih h)

theorem leadsWithin_of_follow (h : disk.follow .resolve links here steps = .ok (.found goal)) :
    disk.LeadsWithin links here steps goal := by
  fun_induction Disk.follow disk .resolve links here steps with
  | case1 links here steps destination hwalk =>
      apply leadsWithin_of_walkTo
      rw [hwalk]
      exact Except.ok.inj h
  | case2 => cases h
  | case3 here steps parent target rest hwalk links ih =>
      apply leadsWithin_of_walkTo
      rw [hwalk]
      exact ⟨links, rfl, ih h⟩

theorem follow_eq_of_walkTo_eq {last : LastEntry} {there : Location} {others : List Step}
    (h : disk.walkTo last here steps = disk.walkTo last there others) :
    disk.follow last links here steps = disk.follow last links there others := by
  unfold follow
  rw [h]

/-- Where steps lead within the limits, they are followed to. -/
theorem LeadsWithin.follow_eq (way : disk.LeadsWithin links here steps goal) :
    disk.follow .resolve links here steps = .ok (.found goal) := by
  have hstop : ∀ rest, LastEntry.resolve.stopsBefore rest = false := fun _ => rfl
  have hlast : ∀ rest, LastEntry.resolve.stopsAtLink rest = false := fun _ => rfl
  induction way with
  | arrived => rw [follow, walkTo]
  | slash hdir _ ih | stay hdir _ ih | up hdir _ ih =>
      obtain ⟨entries, hentries⟩ := Option.isSome_iff_exists.1 hdir
      rw [← ih]
      apply follow_eq_of_walkTo_eq
      simp only [walkTo, hentries]
  | @enter links here goal name rest entries node hdir hentry hnode hfits _ ih =>
      rw [← ih]
      apply follow_eq_of_walkTo_eq
      have hshort := (admits_iff hdir hentry).1 hfits
      cases node with
      | link target => exact absurd rfl (hnode target)
      | file | dir | device =>
          simp only [walkTo, hdir, hstop, hshort, hentry, Bool.false_eq_true, if_false]
  | @link links here goal name rest entries target hdir hentry hfits _ ih =>
      have hshort := (admits_iff hdir hentry).1 hfits
      have hwalk : disk.walkTo .resolve here (.enter name :: rest) = .link here target rest := by
        simp only [walkTo, hdir, hstop, hlast, hshort, hentry, Bool.false_eq_true, if_false]
      rw [follow, hwalk]
      exact ih

/-! ## What a path stands for -/

/-- A path stands for a location: it spells a way for the system, it starts where there is
    something, and its steps lead to the location within the limits. -/
structure ResolvesTo (disk : Disk) (path : Path) (goal : Location) : Prop where
  bytes_ne_nil : path.bytes ≠ []
  zero_not_mem : 0 ∉ path.bytes
  exists_start : path.isAbsolute = false → ∃ node, disk.node? disk.current = some node
  leadsWithin : disk.LeadsWithin maxLinks (startOf disk.current path) path.steps goal

variable {path : Path}

theorem ResolvesTo.leadsTo (h : disk.ResolvesTo path goal) : disk.LeadsTo path goal :=
  h.leadsWithin.leads

theorem isAdrift_eq_false_iff :
    disk.isAdrift = false ↔ ∃ node, disk.node? disk.current = some node := by
  rw [isAdrift, Option.isNone_eq_false_iff, Option.isSome_iff_exists]

theorem resolvesTo_of_resolve (h : disk.resolve path = .ok goal) : disk.ResolvesTo path goal := by
  unfold resolve at h
  split at h
  · cases h
  next hthere =>
    obtain ⟨hne, hzero, hfollow⟩ := follow_of_way h
    refine ⟨hne, by simpa using hzero, fun hrelative => ?_, leadsWithin_of_follow hfollow⟩
    rw [hrelative, hzero, Bool.not_false, Bool.and_true, Bool.and_true, Bool.not_eq_true] at hthere
    exact isAdrift_eq_false_iff.1 hthere

theorem ResolvesTo.resolve_eq (h : disk.ResolvesTo path goal) : disk.resolve path = .ok goal := by
  have hempty : path.bytes.isEmpty = false := by simpa using h.bytes_ne_nil
  have hzero : path.bytes.contains 0 = false := by simpa using h.zero_not_mem
  have hthere : (disk.isAdrift && !path.isAbsolute) = false := by
    cases habsolute : path.isAbsolute with
    | true => rw [Bool.not_true, Bool.and_false]
    | false => rw [isAdrift_eq_false_iff.2 (h.exists_start habsolute), Bool.false_and]
  rw [resolve, hthere, Bool.false_and, if_neg Bool.false_ne_true, way, hempty, hzero,
    if_neg Bool.false_ne_true, if_neg Bool.false_ne_true, h.leadsWithin.follow_eq]
  rfl

/-- The full path is found of just the location that a path stands for. -/
theorem resolve_eq_ok_iff : disk.resolve path = .ok goal ↔ disk.ResolvesTo path goal :=
  ⟨resolvesTo_of_resolve, ResolvesTo.resolve_eq⟩

/-! ## Ways keep to real nodes -/

/-- A location of a node that is no link. -/
def IsReal (disk : Disk) (location : Location) : Prop :=
  ∃ node, disk.node? location = some node ∧ ∀ target, node ≠ .link target

theorem isReal_of_dir {entries : List (Bytes × Node)}
    (hdir : disk.node? here = some (.dir entries)) : disk.IsReal here :=
  ⟨_, hdir, fun target same => by cases same⟩

namespace IsReal

theorem exists_dir (h : disk.IsReal here) (hdir : (disk.entries? here).isSome) :
    ∃ entries, disk.node? here = some (.dir entries) := by
  obtain ⟨node, hnode, -⟩ := h
  rw [entries?, hnode] at hdir
  cases node with
  | dir entries => exact ⟨entries, hnode⟩
  | file | link | device => cases hdir

/-- The node above a real node is a directory. -/
theorem dropLast (h : disk.IsReal here) : disk.IsReal here.dropLast := by
  rcases List.eq_nil_or_concat here with rfl | ⟨above, last, rfl⟩
  · exact h
  · obtain ⟨node, hnode, -⟩ := h
    rw [List.concat_eq_append, node?, Node.get?_append, Option.bind_eq_some_iff] at hnode
    obtain ⟨parent, hparent, hbelow⟩ := hnode
    obtain ⟨entries, -, rfl, -, -⟩ := Node.get?_cons_eq_some_iff.1 hbelow
    rw [List.concat_eq_append, List.dropLast_concat]
    exact isReal_of_dir hparent

theorem top (h : disk.IsReal here) : disk.IsReal [] := by
  cases here with
  | nil => exact h
  | cons name rest =>
      obtain ⟨node, hnode, -⟩ := h
      obtain ⟨entries, -, htop, -, -⟩ := Node.get?_cons_eq_some_iff.1 hnode
      exact isReal_of_dir (congrArg some htop)

theorem start (h : disk.IsReal here) (target : Path) : disk.IsReal (startOf here target) := by
  unfold startOf
  split
  · exact h.top
  · exact h

end IsReal

/-- Steps lead from one real node to another. -/
theorem Leads.isReal (way : disk.Leads here steps goal) (h : disk.IsReal here) :
    disk.IsReal goal := by
  induction way with
  | arrived => exact h
  | slash _ _ ih | stay _ _ ih => exact ih h
  | up _ _ ih => exact ih h.dropLast
  | enter hdir hentry hnode _ ih =>
      exact ih ⟨_, by rw [node?_concat (node?_of_lookup hdir hentry), hentry], hnode⟩
  | link _ _ _ ih => exact ih (h.start _)

/-- An absolute path starts with a step in the root directory. -/
theorem LeadsTo.isReal_top (h : disk.LeadsTo path goal) (habsolute : path.isAbsolute = true) :
    disk.IsReal [] := by
  have hdir : (disk.entries? []).isSome := by
    obtain ⟨next, rest, hsteps⟩ := List.exists_cons_of_ne_nil (Path.steps_ne_nil habsolute)
    rw [LeadsTo, startOf, habsolute, if_pos rfl, hsteps] at h
    cases h with
    | slash hdir | stay hdir | up hdir => exact hdir
    | enter hdir | link hdir => exact Option.isSome_of_mem hdir
  cases htop : disk.top with
  | dir entries => exact isReal_of_dir (congrArg some htop)
  | file | link | device => simp [entries?, node?, Node.get?, htop] at hdir

/-- A path leads to a real node, as the current directory is one. -/
theorem LeadsTo.isReal (h : disk.LeadsTo path goal)
    (hcurrent : path.isAbsolute = false → disk.IsReal disk.current) : disk.IsReal goal := by
  refine Leads.isReal h ?_
  unfold startOf
  split
  next habsolute => exact h.isReal_top habsolute
  next hrelative => exact hcurrent (Bool.eq_false_iff.2 hrelative)

end Disk

end LicenseStamp

import LicenseStamp.Proofs.Tree.Put

/-! # Where steps lead

A relation beside the functions that follow paths. It knows no limit on links or lengths,
so all of these functions answer within it, and it has one goal for each start: requests of
different kinds that find something find the same.
-/

namespace LicenseStamp

namespace Disk

variable {disk : Disk}

section Nodes

variable {inside : Location} {entries : List (Bytes × Node)}

theorem node?_append (hdir : disk.node? inside = some (.dir entries)) (place : Location) :
    disk.node? (inside ++ place) = (Node.dir entries).get? place := by
  have habove : disk.top.get? inside = some (.dir entries) := hdir
  rw [node?, Node.get?_append, habove, Option.bind_some]

theorem node?_concat (hdir : disk.node? inside = some (.dir entries)) (name : Bytes) :
    disk.node? (inside ++ [name]) = entries.lookup name := by
  rw [node?_append hdir]
  cases hlookup : entries.lookup name <;> simp [Node.get?, hlookup]

end Nodes

/-- Steps lead from one location to another, each link on the way replaced by the steps of
    its target. -/
inductive Leads (disk : Disk) : Location → List Step → Location → Prop where
  /-- No step leads anywhere else. -/
  | arrived {here : Location} : Leads disk here [] here
  /-- A slash stays in a directory. -/
  | slash {here goal : Location} {rest : List Step} (hdir : (disk.entries? here).isSome)
      (onward : Leads disk here rest goal) : Leads disk here (.slash :: rest) goal
  /-- A dot stays in a directory. -/
  | stay {here goal : Location} {rest : List Step} (hdir : (disk.entries? here).isSome)
      (onward : Leads disk here rest goal) : Leads disk here (.stay :: rest) goal
  /-- Two dots lead to the parent directory. -/
  | up {here goal : Location} {rest : List Step} (hdir : (disk.entries? here).isSome)
      (onward : Leads disk here.dropLast rest goal) : Leads disk here (.up :: rest) goal
  /-- A name leads to an entry that is no link. -/
  | enter {here goal : Location} {name : Bytes} {rest : List Step}
      {entries : List (Bytes × Node)} {node : Node} (hdir : disk.entries? here = some entries)
      (hentry : entries.lookup name = some node) (hnode : ∀ target, node ≠ .link target)
      (onward : Leads disk (here ++ [name]) rest goal) : Leads disk here (.enter name :: rest) goal
  /-- The name of a link leads where the target of the link does. -/
  | link {here goal : Location} {name : Bytes} {rest : List Step}
      {entries : List (Bytes × Node)} {target : Path} (hdir : disk.entries? here = some entries)
      (hentry : entries.lookup name = some (.link target))
      (onward : Leads disk (startOf here target) (target.steps ++ rest) goal) :
      Leads disk here (.enter name :: rest) goal

theorem entry_unique {here : Location} {name : Bytes} {entries others : List (Bytes × Node)}
    {node other : Node} (hdir : disk.entries? here = some entries)
    (hentry : entries.lookup name = some node) (hdir' : disk.entries? here = some others)
    (hentry' : others.lookup name = some other) : node = other := by
  obtain rfl := Option.some.inj (hdir.symm.trans hdir')
  exact Option.some.inj (hentry.symm.trans hentry')

/-- Steps lead to one location only. -/
theorem Leads.unique {here goal other : Location} {steps : List Step}
    (first : disk.Leads here steps goal) (second : disk.Leads here steps other) :
    goal = other := by
  induction first with
  | arrived =>
      cases second
      rfl
  | slash _ _ ih =>
      cases second with
      | slash _ onward => exact ih onward
  | stay _ _ ih =>
      cases second with
      | stay _ onward => exact ih onward
  | up _ _ ih =>
      cases second with
      | up _ onward => exact ih onward
  | enter hdir hentry hnode _ ih =>
      cases second with
      | enter _ _ _ onward => exact ih onward
      | link hdir' hentry' _ => exact absurd (entry_unique hdir hentry hdir' hentry') (hnode _)
  | link hdir hentry _ ih =>
      cases second with
      | enter hdir' hentry' hnode _ =>
          exact absurd (entry_unique hdir' hentry' hdir hentry) (hnode _)
      | link hdir' hentry' onward =>
          obtain rfl := Node.link.inj (entry_unique hdir hentry hdir' hentry')
          exact ih onward

private theorem Leads.split_nil {here goal : Location} {second steps : List Step}
    (way : disk.Leads here steps goal) (hsteps : [] ++ second = steps) :
    ∃ middle, disk.Leads here [] middle ∧ disk.Leads middle second goal :=
  ⟨here, .arrived, by rwa [← hsteps, List.nil_append] at way⟩

/-- A way can be cut anywhere: its first steps lead to where the others start. -/
theorem Leads.split {here goal : Location} {first second : List Step}
    (way : disk.Leads here (first ++ second) goal) :
    ∃ middle, disk.Leads here first middle ∧ disk.Leads middle second goal := by
  generalize hsteps : first ++ second = steps at way
  induction way generalizing first with
  | arrived =>
      obtain ⟨rfl, rfl⟩ := List.append_eq_nil_iff.1 hsteps
      exact ⟨_, .arrived, .arrived⟩
  | slash hdir onward ih =>
      cases first with
      | nil => exact split_nil (.slash hdir onward) hsteps
      | cons step rest =>
          obtain ⟨rfl, hrest⟩ := List.cons.inj hsteps
          obtain ⟨middle, start, tail⟩ := ih hrest
          exact ⟨middle, .slash hdir start, tail⟩
  | stay hdir onward ih =>
      cases first with
      | nil => exact split_nil (.stay hdir onward) hsteps
      | cons step rest =>
          obtain ⟨rfl, hrest⟩ := List.cons.inj hsteps
          obtain ⟨middle, start, tail⟩ := ih hrest
          exact ⟨middle, .stay hdir start, tail⟩
  | up hdir onward ih =>
      cases first with
      | nil => exact split_nil (.up hdir onward) hsteps
      | cons step rest =>
          obtain ⟨rfl, hrest⟩ := List.cons.inj hsteps
          obtain ⟨middle, start, tail⟩ := ih hrest
          exact ⟨middle, .up hdir start, tail⟩
  | enter hdir hentry hnode onward ih =>
      cases first with
      | nil => exact split_nil (.enter hdir hentry hnode onward) hsteps
      | cons step rest =>
          obtain ⟨rfl, hrest⟩ := List.cons.inj hsteps
          obtain ⟨middle, start, tail⟩ := ih hrest
          exact ⟨middle, .enter hdir hentry hnode start, tail⟩
  | @link here goal name more entries target hdir hentry onward ih =>
      cases first with
      | nil => exact split_nil (.link hdir hentry onward) hsteps
      | cons step rest =>
          obtain ⟨rfl, hrest⟩ := List.cons.inj hsteps
          -- the target's steps come before the cut
          have hcut : target.steps ++ rest ++ second = target.steps ++ more := by
            rw [List.append_assoc]
            exact congrArg (target.steps ++ ·) hrest
          obtain ⟨middle, start, tail⟩ := ih hcut
          exact ⟨middle, .link hdir hentry start, tail⟩

theorem Leads.slash_inv {here goal : Location} {rest : List Step}
    (way : disk.Leads here (.slash :: rest) goal) :
    (disk.entries? here).isSome ∧ disk.Leads here rest goal := by
  cases way with
  | slash hdir onward => exact ⟨hdir, onward⟩

/-- Slashes at the end of a way are met in a directory. -/
theorem Leads.isSome_entries?_of_slashes {here goal : Location} {steps : List Step}
    (way : disk.Leads here steps goal) (hne : steps ≠ [])
    (hslash : ∀ step ∈ steps, step = Step.slash) : (disk.entries? goal).isSome := by
  induction steps with
  | nil => exact absurd rfl hne
  | cons step rest ih =>
      obtain rfl := hslash step List.mem_cons_self
      obtain ⟨hdir, onward⟩ := way.slash_inv
      cases rest with
      | nil =>
          cases onward
          exact hdir
      | cons next rest =>
          exact ih onward (List.cons_ne_nil _ _) fun step h => hslash step (List.mem_cons_of_mem _ h)

/-- Names lead down a tree to the node at the place that they spell. -/
theorem leads_place {here place : Location} {node : Node}
    (hnode : disk.node? (here ++ place) = some node) (hlink : ∀ target, node ≠ .link target) :
    disk.Leads here (place.map .enter) (here ++ place) := by
  induction place generalizing here with
  | nil =>
      rw [List.append_nil]
      exact .arrived
  | cons name rest ih =>
      have hget := hnode
      rw [node?, Node.get?_append, Option.bind_eq_some_iff] at hget
      obtain ⟨above, habove, hbelow⟩ := hget
      obtain ⟨entries, next, rfl, hlookup, hrest⟩ := Node.get?_cons_eq_some_iff.1 hbelow
      have hdir : disk.entries? here = some entries := by rw [entries?, node?, habove]
      have hnext : ∀ target, next ≠ .link target := by
        rintro target rfl
        cases rest with
        | nil => exact hlink target (by simpa only [Node.get?, Option.some.injEq] using hrest.symm)
        | cons => cases hrest
      have hagain : disk.node? ((here ++ [name]) ++ rest) = some node := by
        simpa only [List.append_assoc, List.singleton_append] using hnode
      have onward := ih hagain
      rw [List.append_assoc, List.singleton_append] at onward
      exact .enter hdir hlookup hnext onward

/-- Following steps up to a link and then the target of the link is following the steps. -/
theorem leads_of_walkTo {last : LastEntry} (hlast : last ≠ .name) {here goal : Location}
    {steps : List Step}
    (h : match disk.walkTo last here steps with
      | .ended destination => destination = .found goal
      | .link parent target rest =>
        disk.Leads (startOf parent target) (target.steps ++ rest) goal) :
    disk.Leads here steps goal := by
  have hstop : ∀ rest, last.stopsAtLink rest = false := by
    intro rest
    cases last <;> first | rfl | exact absurd rfl hlast
  fun_induction Disk.walkTo disk last here steps with
  | case1 here =>
      cases h
      exact .arrived
  | case2 | case6 | case7 | case8 => cases h
  | case3 here rest entries hdir ih => exact .slash (by simp [hdir]) (ih h)
  | case4 here rest entries hdir ih => exact .stay (by simp [hdir]) (ih h)
  | case5 here rest entries hdir ih => exact .up (by simp [hdir]) (ih h)
  | case9 here rest entries hdir name _ _ target hentry hlink =>
      rw [hstop] at hlink
      cases hlink
  | case10 here rest entries hdir name _ _ target hentry _ => exact .link hdir hentry h
  | case11 here rest entries hdir name _ _ node hnode hentry ih =>
      exact .enter hdir hentry hnode (ih h)

theorem leads_of_follow {last : LastEntry} (hlast : last ≠ .name) {links : Nat}
    {here goal : Location} {steps : List Step}
    (h : disk.follow last links here steps = .ok (.found goal)) : disk.Leads here steps goal := by
  fun_induction Disk.follow disk last links here steps with
  | case1 links here steps destination hwalk =>
      apply leads_of_walkTo hlast
      rw [hwalk]
      exact Except.ok.inj h
  | case2 => cases h
  | case3 here steps parent target rest hwalk links ih =>
      apply leads_of_walkTo hlast
      rw [hwalk]
      exact ih h

/-- A path leads to a location, whatever its length and however many links there are. -/
def LeadsTo (disk : Disk) (path : Path) (goal : Location) : Prop :=
  disk.Leads (startOf disk.current path) path.steps goal

theorem LeadsTo.unique {path : Path} {goal other : Location} (first : disk.LeadsTo path goal)
    (second : disk.LeadsTo path other) : goal = other :=
  Leads.unique first second

end Disk

theorem Destination.eq_found_of_location {destination : Destination} {location : Location}
    (h : destination.location = .ok location) : destination = .found location := by
  cases destination <;> simp_all [Destination.location]

namespace Disk

variable {disk : Disk} {path : Path} {goal : Location}

theorem follow_of_way {last : LastEntry} (h : (disk.way last path).bind Destination.location = .ok goal) :
    path.bytes ≠ [] ∧ path.bytes.contains 0 = false ∧
      disk.follow last maxLinks (startOf disk.current path) path.steps = .ok (.found goal) := by
  unfold way at h
  split at h
  · cases h
  next hempty =>
    split at h
    · cases h
    next hzero =>
      refine ⟨by simpa using hempty, by simpa using hzero, ?_⟩
      cases hfollow : disk.follow last maxLinks (startOf disk.current path) path.steps with
      | error cause =>
          rw [hfollow] at h
          cases h
      | ok destination =>
          rw [hfollow] at h
          rw [Destination.eq_found_of_location h]

theorem way_of_find (h : disk.find path = .ok goal) :
    ¬ (maxPath < path.bytes.length) ∧
      (disk.way .use path).bind Destination.location = .ok goal := by
  unfold find destination at h
  split at h
  · cases h
  next hlong =>
    have hzero := (follow_of_way h).2.1
    rw [hzero, Bool.not_false, Bool.and_true, decide_eq_true_eq] at hlong
    exact ⟨hlong, h⟩

theorem leadsTo_of_find (h : disk.find path = .ok goal) : disk.LeadsTo path goal :=
  leads_of_follow (by decide) (follow_of_way (way_of_find h).2).2.2

theorem leadsTo_of_resolve (h : disk.resolve path = .ok goal) : disk.LeadsTo path goal := by
  unfold resolve at h
  split at h
  · cases h
  · exact leads_of_follow (by decide) (follow_of_way h).2.2

end Disk

end LicenseStamp

import LicenseStamp.Proofs.Tree.Coverage
import LicenseStamp.Proofs.Tree.Operations

/-! # What a write leaves alone

A write puts a file where its path leads, or changes nothing. Every other node stays: a file with
its bytes, a link with its target, and a directory as a directory.
-/

namespace LicenseStamp

namespace Node

/-- A node without what lies below it. -/
def alone : Node → Node
  | .file content => .file content
  | .link target => .link target
  | .device full => .device full
  | .dir _ => .dir []

variable {tree new : Node} {location other : Location}

theorem get?_eq_none_of_leaf {node : Node} (h : ∀ entries, node ≠ .dir entries) (hne : other ≠ []) :
    node.get? other = none := by
  obtain ⟨first, more, rfl⟩ := List.exists_cons_of_ne_nil hne
  cases node with
  | file | link | device => rfl
  | dir entries => exact absurd rfl (h entries)

/-- Where there is no directory, a node without entries takes the place of one node and leaves all
    others as they are. -/
theorem alone_get?_set (hnew : ∀ entries, new ≠ .dir entries)
    (hold : ∀ entries, tree.get? location ≠ some (.dir entries)) (hne : other ≠ location) :
    ((tree.set location new).get? other).map alone = (tree.get? other).map alone := by
  -- along the way to the new node; what is left out of `alone` is all that changes there
  fun_induction Node.set tree location new generalizing other with
  | case1 tree new =>
      have htree : ∀ entries, tree ≠ .dir entries := fun entries same =>
        hold entries (by rw [same, get?])
      rw [get?_eq_none_of_leaf hnew hne, get?_eq_none_of_leaf htree hne]
  | case2 entries name new =>
      cases other with
      | nil => rfl
      | cons first more =>
          by_cases hname : first = name
          · subst hname
            have hmore : more ≠ [] := fun hnil => hne (by rw [hnil])
            simp only [get?, lookup_setEntry_self, Option.bind_some, get?_eq_none_of_leaf hnew hmore]
            cases hlookup : entries.lookup first with
            | none => rfl
            | some old =>
                have hleaf : ∀ entries, old ≠ .dir entries := by
                  rintro inner rfl
                  exact hold inner (by simp only [get?, hlookup, Option.bind_some])
                rw [Option.bind_some, get?_eq_none_of_leaf hleaf hmore]
          · simp only [get?, lookup_setEntry_of_ne hname]
  | case3 entries name next rest new node hlookup ih =>
      cases other with
      | nil => rfl
      | cons first more =>
          by_cases hname : first = name
          · subst hname
            have hmore : more ≠ next :: rest := fun same => hne (by rw [same])
            simp only [get?, lookup_setEntry_self, hlookup, Option.bind_some] at hold ⊢
            exact ih hnew hold hmore
          · simp only [get?, lookup_setEntry_of_ne hname]
  | case4 | case5 => rfl

end Node

namespace Disk

variable {disk after : Disk} {path : Path} {location parent : Location} {name content : Bytes}
  {rest : List Step}

/-- Where a write at a path puts its file, if it puts one. -/
def writeTarget? (disk : Disk) (path : Path) : Option Location :=
  match disk.destination .write path with
  | .ok (.found location) => some location
  | .ok (.missing parent name _) => some (parent ++ [name])
  | _ => none

theorem lookup_of_walkTo_missing {last : LastEntry} {here : Location} {steps : List Step}
    (h : disk.walkTo last here steps = .ended (.missing parent name rest)) :
    ∃ entries, disk.entries? parent = some entries ∧ entries.lookup name = none := by
  fun_induction Disk.walkTo disk last here steps with
  | case1 | case2 | case6 | case7 | case9 | case10 => cases h
  | case3 here rest entries hdir ih | case4 here rest entries hdir ih
  | case5 here rest entries hdir ih => exact ih h
  | case8 here rest entries hdir name _ _ hentry =>
      cases h
      exact ⟨entries, hdir, hentry⟩
  | case11 here rest entries hdir name _ _ node hnode hentry ih => exact ih h

theorem lookup_of_follow_missing {last : LastEntry} {links : Nat} {here : Location}
    {steps : List Step} (h : disk.follow last links here steps = .ok (.missing parent name rest)) :
    ∃ entries, disk.entries? parent = some entries ∧ entries.lookup name = none := by
  fun_induction Disk.follow disk last links here steps with
  | case1 links here steps destination hwalk =>
      obtain rfl := Except.ok.inj h
      exact lookup_of_walkTo_missing hwalk
  | case2 => cases h
  | case3 here steps parent target rest hwalk links ih => exact ih h

/-- There is no node under a name that a way misses. -/
theorem node?_of_missing {last : LastEntry}
    (h : disk.destination last path = .ok (.missing parent name rest)) :
    disk.node? (parent ++ [name]) = none := by
  have hfollow : disk.follow last maxLinks (startOf disk.current path) path.steps =
      .ok (.missing parent name rest) := by
    simp only [destination, way] at h
    split at h
    · cases h
    · split at h
      · cases h
      · split at h
        · cases h
        · exact h
  obtain ⟨entries, hdir, hlookup⟩ := lookup_of_follow_missing hfollow
  unfold entries? at hdir
  split at hdir
  next hnone =>
    rw [node?] at hnone
    rw [node?, Node.get?_append, hnone, Option.bind_none]
  next found hnode =>
    obtain rfl := Option.some.inj hdir
    rw [node?_concat hnode, hlookup]
  · cases hdir

theorem overwrite_cases (h : disk.overwrite location content = .ok after) :
    after = disk ∨ (∀ entries, disk.node? location ≠ some (.dir entries)) ∧
      after = disk.put location (.file content) := by
  unfold overwrite at h
  split at h
  · cases h
  · split at h
    · split at h
      · cases h
      · exact .inl (Except.ok.inj h).symm
    · cases h
    · cases h
    next hnode => exact .inr ⟨by simp [hnode], (Except.ok.inj h).symm⟩
    next hnode => exact .inr ⟨by simp [hnode], (Except.ok.inj h).symm⟩

/-- A write that succeeds puts a file where there is no directory, or changes nothing. -/
theorem write_cases (h : disk.write path content = .ok after) :
    after = disk ∨ ∃ location, disk.writeTarget? path = some location ∧
      (∀ entries, disk.node? location ≠ some (.dir entries)) ∧
      after = disk.put location (.file content) := by
  unfold write at h
  cases hdestination : disk.destination .write path with
  | error cause => simp [hdestination, bind, Except.bind] at h
  | ok destination =>
      simp only [hdestination, bind, Except.bind] at h
      cases destination with
      | found location =>
          rcases overwrite_cases h with hsame | ⟨hleaf, hput⟩
          · exact .inl hsame
          · exact .inr ⟨location, by rw [writeTarget?, hdestination], hleaf, hput⟩
      | missing parent name rest =>
          simp only at h
          split at h
          · refine .inr ⟨parent ++ [name], by rw [writeTarget?, hdestination], ?_, ?_⟩
            · simp [node?_of_missing hdestination]
            · exact (Except.ok.inj h).symm
          · cases h
      | entry | blocked | tooLong => cases h

/-- A write leaves every node as it is but the one that its path leads to. -/
theorem alone_of_write (h : disk.write path content = .ok after)
    (hother : disk.writeTarget? path ≠ some location) :
    (after.node? location).map Node.alone = (disk.node? location).map Node.alone := by
  rcases write_cases h with rfl | ⟨target, htarget, hleaf, rfl⟩
  · rfl
  · refine Node.alone_get?_set (fun _ => nofun) hleaf fun same => hother ?_
    rw [htarget, same]

end Disk

end LicenseStamp

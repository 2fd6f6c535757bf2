import LicenseStamp.Proofs.Tree.WellFormed
import LicenseStamp.Tree.Access

/-! # Operations keep trees well-formed

What is asked for by a path has a proper name, as the pieces of a path hold no slash and the
dots are steps of their own. So all that is written, made or linked gets a proper name, and each
tree that the operations build is well-formed.
-/

namespace LicenseStamp

/-- A step that enters nothing but what can be an entry. -/
def Step.IsProper (step : Step) : Prop := ∀ name, step = .enter name → Bytes.isName name = true

theorem Step.isProper_ofPiece {piece : Bytes} (h : Path.slash ∉ piece) :
    (Step.ofPiece piece).IsProper := by
  intro name hname
  unfold ofPiece at hname
  split at hname
  · cases hname
  · split at hname
    · cases hname
    · split at hname
      · cases hname
      · obtain rfl := Step.enter.inj hname
        simp_all [Bytes.isName]

theorem Path.isProper_of_mem_steps {path : Path} {step : Step} (h : step ∈ path.steps) :
    step.IsProper := by
  obtain ⟨piece, hpiece, rfl⟩ := List.mem_map.1 h
  exact Step.isProper_ofPiece (slash_not_mem_of_mem_split hpiece)

/-- An end of a way whose next entry, if there is one, can be an entry. -/
def Destination.IsProper : Destination → Prop
  | .missing _ name _ | .entry _ name _ => Bytes.isName name = true
  | .found _ | .blocked _ _ | .tooLong _ => True

namespace Disk

variable {disk after : Disk} {last : LastEntry} {path : Path}

/-- Following proper steps ends properly, or comes to a link with proper steps behind it. -/
theorem isProper_walkTo {here : Location} {steps : List Step} (h : ∀ step ∈ steps, step.IsProper) :
    (∀ destination, disk.walkTo last here steps = .ended destination → destination.IsProper) ∧
      ∀ parent target rest, disk.walkTo last here steps = .link parent target rest →
        ∀ step ∈ rest, step.IsProper := by
  fun_induction Disk.walkTo disk last here steps with
  | case1 | case2 | case7 | case9 =>
      constructor
      · rintro _ ⟨⟩
        trivial
      · rintro _ _ _ ⟨⟩
  | case6 here rest entries hentries name | case8 here rest entries hentries name =>
      constructor
      · rintro _ ⟨⟩
        exact h _ List.mem_cons_self name rfl
      · rintro _ _ _ ⟨⟩
  | case10 =>
      constructor
      · rintro _ ⟨⟩
      · rintro _ _ _ ⟨⟩ step hstep
        exact h step (List.mem_cons_of_mem _ hstep)
  | case3 here rest entries hentries ih | case4 here rest entries hentries ih
  | case5 here rest entries hentries ih =>
      exact ih fun step hstep => h step (List.mem_cons_of_mem _ hstep)
  | case11 here rest entries hentries name hstop hlong node hnode hlookup ih =>
      exact ih fun step hstep => h step (List.mem_cons_of_mem _ hstep)

theorem isProper_follow {links : Nat} {here : Location} {steps : List Step}
    {destination : Destination} (hsteps : ∀ step ∈ steps, step.IsProper)
    (h : disk.follow last links here steps = .ok destination) : destination.IsProper := by
  fun_induction Disk.follow disk last links here steps with
  | case1 links here steps found hwalk =>
      obtain rfl := Except.ok.inj h
      exact (isProper_walkTo hsteps).1 _ hwalk
  | case2 => cases h
  | case3 here steps parent target rest hwalk links ih =>
      refine ih (fun step hstep => ?_) h
      rcases List.mem_append.1 hstep with htarget | hrest
      · exact Path.isProper_of_mem_steps htarget
      · exact (isProper_walkTo hsteps).2 _ _ _ hwalk step hrest

/-- The next entry at the end of a way has a proper name. -/
theorem isProper_destination {destination : Destination}
    (h : disk.destination last path = .ok destination) : destination.IsProper := by
  unfold Disk.destination way at h
  split at h
  · cases h
  · split at h
    · cases h
    · split at h
      · cases h
      · exact isProper_follow (fun step hstep => Path.isProper_of_mem_steps hstep) h

end Disk

namespace Node

theorem lookup_filter_eq_none {entries : List (Bytes × Node)} {name : Bytes}
    (keep : Bytes × Node → Bool) (h : entries.lookup name = none) :
    (entries.filter keep).lookup name = none := by
  rw [List.lookup_eq_none_iff] at h ⊢
  intro entry hentry
  exact h entry (List.mem_filter.1 hentry).1

theorem areWellFormed_of_cons {name : Bytes} {node : Node} {rest : List (Bytes × Node)}
    (hname : name.isName = true) (hfresh : rest.lookup name = none)
    (hnode : node.isWellFormed = true) (hrest : areWellFormed rest = true) :
    areWellFormed ((name, node) :: rest) = true := by
  simp only [areWellFormed, hname, hfresh, hnode, hrest, Option.isNone_none, Bool.and_self]

theorem areWellFormed_filter {entries : List (Bytes × Node)} (keep : Bytes × Node → Bool)
    (h : areWellFormed entries = true) : areWellFormed (entries.filter keep) = true := by
  induction entries with
  | nil => rfl
  | cons entry rest ih =>
      obtain ⟨name, node⟩ := entry
      obtain ⟨hname, hfresh, hnode, hrest⟩ := areWellFormed_cons h
      rw [List.filter_cons]
      split
      · exact areWellFormed_of_cons hname (lookup_filter_eq_none keep hfresh) hnode (ih hrest)
      · exact ih hrest

theorem areWellFormed_setEntry {name : Bytes} {node : Node} {entries : List (Bytes × Node)}
    (hname : name.isName = true) (hnode : node.isWellFormed = true)
    (h : areWellFormed entries = true) : areWellFormed (setEntry name node entries) = true := by
  fun_induction setEntry name node entries with
  | case1 => exact areWellFormed_of_cons hname rfl hnode h
  | case2 old rest =>
      obtain ⟨-, hfresh, -, hrest⟩ := areWellFormed_cons h
      exact areWellFormed_of_cons hname hfresh hnode hrest
  | case3 other old rest hne ih =>
      obtain ⟨hother, hfresh, hold, hrest⟩ := areWellFormed_cons h
      refine areWellFormed_of_cons hother ?_ hold (ih hrest)
      rw [lookup_setEntry_of_ne hne]
      exact hfresh

/-- A well-formed node under a proper name leaves a tree well-formed. -/
theorem isWellFormed_set {tree new : Node} {location : Location} (h : tree.isWellFormed = true)
    (hnew : new.isWellFormed = true)
    (hlast : ∀ name, location.getLast? = some name → Bytes.isName name = true) :
    (tree.set location new).isWellFormed = true := by
  fun_induction set tree location new with
  | case1 => exact hnew
  | case2 entries name => exact areWellFormed_setEntry (hlast name rfl) hnew h
  | case3 entries name next rest new node hlookup ih =>
      obtain ⟨hname, hnode⟩ := isWellFormed_of_lookup h hlookup
      refine areWellFormed_setEntry hname (ih hnode hnew fun last hlast' => hlast last ?_) h
      rw [List.getLast?_cons_cons]
      exact hlast'
  | case4 | case5 => exact h

theorem isWellFormed_erase {tree : Node} {location : Location} (h : tree.isWellFormed = true) :
    (tree.erase location).isWellFormed = true := by
  fun_induction erase tree location with
  | case1 => exact h
  | case2 => exact areWellFormed_filter _ h
  | case3 entries name next rest node hlookup ih =>
      obtain ⟨hname, hnode⟩ := isWellFormed_of_lookup h hlookup
      exact areWellFormed_setEntry hname (ih hnode) h
  | case4 | case5 => exact h

theorem isName_of_get? {tree node : Node} {location : Location} (h : tree.isWellFormed = true)
    (hget : tree.get? location = some node) : ∀ name ∈ location, Bytes.isName name = true := by
  induction location generalizing tree with
  | nil => exact fun name => nofun
  | cons first rest ih =>
      obtain ⟨entries, next, rfl, hlookup, hrest⟩ := get?_cons_eq_some_iff.1 hget
      obtain ⟨hfirst, hnext⟩ := isWellFormed_of_lookup h hlookup
      intro name hname
      rcases List.mem_cons.1 hname with rfl | hname
      · exact hfirst
      · exact ih hnext hrest name hname

end Node

namespace Disk

variable {disk after : Disk} {path target : Path}

theorem isWellFormed_put {parent : Location} {name : Bytes} {new : Node}
    (h : disk.top.isWellFormed = true) (hname : name.isName = true)
    (hnew : new.isWellFormed = true) :
    (disk.put (parent ++ [name]) new).top.isWellFormed = true := by
  refine Node.isWellFormed_set h hnew fun last hlast => ?_
  rw [List.getLast?_concat, Option.some.injEq] at hlast
  exact hlast ▸ hname

theorem isWellFormed_write {content : Bytes} (h : disk.top.isWellFormed = true)
    (hwrite : disk.write path content = .ok after) : after.top.isWellFormed = true := by
  unfold write at hwrite
  cases hdestination : disk.destination .write path with
  | error cause => simp [hdestination, bind, Except.bind] at hwrite
  | ok destination =>
      have hproper := isProper_destination hdestination
      simp only [hdestination, bind, Except.bind] at hwrite
      cases destination with
      | found location =>
          simp only [overwrite] at hwrite
          split at hwrite
          · cases hwrite
          · split at hwrite
            · split at hwrite
              · cases hwrite
              · cases hwrite
                exact h
            · cases hwrite
            · cases hwrite
            next hnode =>
              cases hwrite
              refine Node.isWellFormed_set h rfl fun last hlast => ?_
              exact Node.isName_of_get? h hnode last (List.mem_of_getLast? hlast)
            next hnode =>
              cases hwrite
              refine Node.isWellFormed_set h rfl fun last hlast => ?_
              exact Node.isName_of_get? h hnode last (List.mem_of_getLast? hlast)
      | missing parent name rest =>
          simp only [] at hwrite
          split at hwrite
          · cases hwrite
            exact isWellFormed_put h hproper rfl
          · cases hwrite
      | entry | blocked | tooLong => cases hwrite

theorem exists_of_placeFor {location : Location} {slashed : Bool}
    (h : disk.placeFor path = .ok (location, slashed)) :
    ∃ parent name, location = parent ++ [name] ∧ Bytes.isName name = true := by
  unfold placeFor at h
  cases hdestination : disk.destination .make path with
  | error cause => simp [hdestination, bind, Except.bind] at h
  | ok destination =>
      have hproper := isProper_destination hdestination
      simp only [hdestination, bind, Except.bind] at h
      cases destination with
      | found | missing | blocked | tooLong => cases h
      | entry parent name rest =>
          refine ⟨parent, name, ?_, hproper⟩
          simp only [] at h
          split at h
          · cases h
          · split at h
            · cases h
            · split at h
              · cases h
              · exact (Prod.mk.inj (Except.ok.inj h)).1.symm

theorem isWellFormed_makeDir (h : disk.top.isWellFormed = true) (hmake : disk.makeDir path = .ok after) :
    after.top.isWellFormed = true := by
  unfold makeDir at hmake
  cases hplace : disk.placeFor path with
  | error cause => simp [hplace, bind, Except.bind] at hmake
  | ok place =>
      obtain ⟨parent, name, hlocation, hname⟩ := exists_of_placeFor hplace
      simp only [hplace, bind, Except.bind, hlocation] at hmake
      cases hmake
      exact isWellFormed_put h hname rfl

theorem isWellFormed_makeLink (h : disk.top.isWellFormed = true)
    (hmake : disk.makeLink path target = .ok after) : after.top.isWellFormed = true := by
  simp only [makeLink, bind, Except.bind, throw, throwThe, MonadExceptOf.throw, pure,
    Except.pure] at hmake
  split at hmake
  · cases hmake
  · split at hmake
    · cases hmake
    · split at hmake
      · cases hmake
      · split at hmake
        · cases hmake
        next place hplace =>
          split at hmake
          · cases hmake
          · obtain ⟨parent, name, hlocation, hname⟩ := exists_of_placeFor hplace
            cases hmake
            rw [hlocation]
            exact isWellFormed_put h hname rfl

theorem isWellFormed_makeDirChain (h : disk.top.isWellFormed = true) (paths : List Path) :
    (disk.makeDirChain paths).1.top.isWellFormed = true := by
  induction paths generalizing disk with
  | nil => exact h
  | cons path above ih =>
      rw [makeDirChain]
      split
      · exact h
      · split
        next made hmake => exact isWellFormed_makeDir h hmake
        · have hchain := ih h
          split
          next heq =>
            rw [heq] at hchain
            exact hchain
          next between heq =>
            rw [heq] at hchain
            split
            next made hmake => exact isWellFormed_makeDir hchain hmake
            · exact hchain
        · exact h

theorem isWellFormed_makeDirs (h : disk.top.isWellFormed = true) (path : Path) :
    (disk.makeDirs path).1.top.isWellFormed = true :=
  isWellFormed_makeDirChain h _

theorem isWellFormed_eraseEntries (h : disk.top.isWellFormed = true) (location : Location)
    (entries : List (Bytes × Node)) :
    (disk.eraseEntries location entries).top.isWellFormed = true := by
  unfold eraseEntries
  induction entries generalizing disk with
  | nil => exact h
  | cons entry rest ih => exact ih (Node.isWellFormed_erase h)

theorem isWellFormed_remove (h : disk.top.isWellFormed = true) (path : Path) :
    (disk.remove path).1.top.isWellFormed = true := by
  unfold remove
  split
  · exact h
  next location hlocate =>
    split
    next entries hentries =>
      have herased := isWellFormed_eraseEntries h location entries
      unfold removeEmptyDir
      split
      · split
        · exact Node.isWellFormed_erase herased
        · exact herased
      · exact herased
      · exact herased
    · exact Node.isWellFormed_erase h

/-- A disk whose tree the operations build from an empty one. -/
inductive Built : Disk → Prop where
  | empty (current : Location) (running : Option Location) : Built ⟨.dir [], current, running⟩
  | write {disk after : Disk} {path : Path} {content : Bytes} (before : Built disk)
      (hwrite : disk.write path content = .ok after) : Built after
  | makeDirs {disk : Disk} (before : Built disk) (path : Path) : Built (disk.makeDirs path).1
  | makeLink {disk after : Disk} {path target : Path} (before : Built disk)
      (hmake : disk.makeLink path target = .ok after) : Built after
  | remove {disk : Disk} (before : Built disk) (path : Path) : Built (disk.remove path).1

/-- Each tree that the operations build is well-formed. -/
theorem Built.isWellFormed (h : Built disk) : disk.top.isWellFormed = true := by
  induction h with
  | empty => rfl
  | write _ hwrite ih => exact isWellFormed_write ih hwrite
  | makeDirs _ path ih => exact isWellFormed_makeDirs ih path
  | makeLink _ hmake ih => exact isWellFormed_makeLink ih hmake
  | remove _ path ih => exact isWellFormed_remove ih path

end Disk

end LicenseStamp

import LicenseStamp.Proofs.Tree.Collected
import LicenseStamp.Proofs.Tree.Entered

/-! # What a walk collects, exactly

A walk of a directory collects the files in the directories that it enters, and the links there
that lead to files inside. It collects nothing else. This holds if the path of each of these
directories is short enough to be listed, and otherwise the walk fails.
-/

namespace LicenseStamp

namespace Disk

variable {disk : Disk} {root path : Path} {inside place goal : Location}
  {entries : List (Bytes × Node)} {content : Bytes}

/-! ## The root

A root that can be resolved is found, unless its path is too long for a request.
-/

theorem isTooLong_use_of_resolve {here : Location} {name : Bytes}
    (h : disk.isTooLong .resolve here name = false) : disk.isTooLong .use here name = false := by
  simp only [isTooLong, Bool.and_eq_false_iff, Bool.or_eq_false_iff] at h ⊢
  rcases h with hnode | ⟨hname, -⟩
  · exact .inl hnode
  · exact .inr ⟨hname, .inl rfl⟩

theorem walkTo_use_of_resolve {here : Location} {steps : List Step}
    (h : ∀ parent, disk.walkTo .resolve here steps ≠ .ended (.tooLong parent)) :
    disk.walkTo .use here steps = disk.walkTo .resolve here steps := by
  fun_induction Disk.walkTo disk .resolve here steps with
  | case1 => rw [walkTo]
  | case2 here step rest hdir => rw [walkTo, hdir]
  | case3 here rest entries hdir ih | case4 here rest entries hdir ih
  | case5 here rest entries hdir ih =>
      simp only [walkTo, hdir, ih h]
  | case6 here rest entries hdir name hstop => cases hstop
  | case7 here => exact absurd rfl (h here)
  | case8 here rest entries hdir name hstop hlong hentry
  | case10 here rest entries hdir name hstop hlong target hentry hlink =>
      have hlong := isTooLong_use_of_resolve (Bool.eq_false_iff.2 hlong)
      simp only [walkTo, hdir, hlong, hentry]
      rfl
  | case9 here rest entries hdir name hstop hlong target hentry hlink => cases hlink
  | case11 here rest entries hdir name hstop hlong node hnode hentry ih =>
      have hlong := isTooLong_use_of_resolve (Bool.eq_false_iff.2 hlong)
      simp only [walkTo, hdir, hlong, hentry, ih h]
      rfl

theorem follow_use_of_resolve {links : Nat} {here : Location} {steps : List Step}
    (h : disk.follow .resolve links here steps = .ok (.found goal)) :
    disk.follow .use links here steps = .ok (.found goal) := by
  fun_induction Disk.follow disk .resolve links here steps with
  | case1 links here steps destination hwalk =>
      obtain rfl := Except.ok.inj h
      rw [follow, walkTo_use_of_resolve (by simp [hwalk]), hwalk]
  | case2 => cases h
  | case3 here steps parent target rest hwalk links ih =>
      rw [follow, walkTo_use_of_resolve (by simp [hwalk]), hwalk]
      exact ih h

theorem way_of_resolve (h : disk.resolve path = .ok goal) :
    (disk.way .resolve path).bind Destination.location = .ok goal := by
  unfold resolve at h
  split at h
  · cases h
  · exact h

theorem find_of_resolve (h : disk.resolve path = .ok goal) (hshort : path.bytes.length ≤ maxPath) :
    disk.find path = .ok goal := by
  obtain ⟨hempty, hzero, hfollow⟩ := follow_of_way (way_of_resolve h)
  have hempty : path.bytes.isEmpty = false := by simpa using hempty
  have hlong : decide (maxPath < path.bytes.length) = false := by simpa using hshort
  simp only [find, destination, hlong, way, hempty, hzero, follow_use_of_resolve hfollow]
  rfl

theorem find_of_long (h : disk.resolve path = .ok goal) (hlong : maxPath < path.bytes.length) :
    disk.find path = .error .nameTooLong := by
  obtain ⟨-, hzero, -⟩ := follow_of_way (way_of_resolve h)
  simp only [find, destination, hlong, hzero]
  rfl

/-! ## The collected paths -/

/-- A place below a location down to which all names are those of real directories and none is
    skipped. -/
def IsEntered (disk : Disk) (inside place : Location) : Prop :=
  ∀ above name, above ++ [name] <+: place →
    (∃ entries, disk.node? (inside ++ (above ++ [name])) = some (.dir entries)) ∧
      Filter.isSkippedDirName name = false

/-- A path below a root that is a file in entered directories, or a link in them that stands for a
    file at or below the location of the root. -/
def IsInSight (disk : Disk) (root : Path) (inside : Location) (path : Path) : Prop :=
  ∃ above name, disk.IsEntered inside above ∧ path = root.descend (above ++ [name]) ∧
    ((∃ content, disk.content? (inside ++ (above ++ [name])) = some content) ∨
      (∃ target, disk.node? (inside ++ (above ++ [name])) = some (.link target)) ∧
        ∃ goal content, disk.resolve path = .ok goal ∧ inside <+: goal ∧
          disk.content? goal = some content)

theorem isEntered_nil (disk : Disk) (inside : Location) : disk.IsEntered inside [] := by
  intro above name hprefix
  simp at hprefix

theorem isEntered_iff (hdir : disk.node? inside = some (.dir entries)) :
    disk.IsEntered inside place ↔ Node.Entered entries place := by
  constructor
  · intro h
    induction place generalizing inside entries with
    | nil => exact .start
    | cons name rest ih =>
        obtain ⟨⟨inner, hinner⟩, hskip⟩ := h [] name (by simp)
        have hentry : entries.lookup name = some (.dir inner) := by
          rw [← node?_concat hdir]
          exact hinner
        refine .down hentry hskip (ih hinner fun above other hprefix => ?_)
        have hbelow := h (name :: above) other (by simpa using hprefix)
        simpa only [List.append_assoc, List.nil_append, List.cons_append] using hbelow
  · intro h
    induction h generalizing inside with
    | start => exact isEntered_nil disk inside
    | @down entries inner name place hentry hskip _ ih =>
        have hinner : disk.node? (inside ++ [name]) = some (.dir inner) := by
          rw [node?_concat hdir, hentry]
        intro above other hprefix
        cases above with
        | nil =>
            obtain rfl : other = name := by simpa using hprefix
            exact ⟨⟨inner, hinner⟩, hskip⟩
        | cons first more =>
            obtain ⟨rfl, hrest⟩ : first = name ∧ more ++ [other] <+: place := by simpa using hprefix
            have hbelow := ih hinner more other hrest
            simpa only [List.append_assoc, List.nil_append, List.cons_append] using hbelow

theorem leadsInside_of_resolve (hgoal : disk.resolve path = .ok goal) (hinside : inside <+: goal)
    (hcontent : disk.content? goal = some content) : disk.leadsInside inside path = true := by
  simp only [leadsInside, hgoal, content?_eq_some_iff.1 hcontent]
  exact List.isPrefixOf_iff_prefix.2 hinside

/-- Before it looks below a directory a walk does not break off. -/
theorem walk_of_dir (hroot : disk.find root = .ok inside)
    (hdir : disk.node? inside = some (.dir entries)) :
    (disk.walk root).failure = (Node.walk root entries).failure ∧
      ∀ visit ∈ (Node.walk root entries).visits, visit ∈ (disk.walk root).visits := by
  have hentries : disk.entries? inside = some entries := by rw [entries?, hdir]
  have hstart : (disk.walkStart root inside).failure = none := by
    rcases walkStart_cases disk root inside with heq | ⟨heq, -⟩ | heq <;> rw [heq] <;> rfl
  rw [walk_of_find hroot, hentries]
  refine ⟨by simp only [Walk.andThen, hstart], fun visit hvisit => ?_⟩
  simp only [Walk.visits_andThen_of_success hstart, List.mem_append]
  exact .inr hvisit

theorem isInSight_of_collected (hroot : disk.find root = .ok inside)
    (hdir : disk.node? inside = some (.dir entries)) (h : disk.Collected root path) :
    disk.IsInSight root inside path := by
  cases h with
  | start hroot' hcontent =>
      obtain rfl := Except.ok.inj (hroot.symm.trans hroot')
      rw [content?_eq_some_iff, hdir] at hcontent
      cases hcontent
  | file hroot' hdir' hsees =>
      obtain rfl := Except.ok.inj (hroot.symm.trans hroot')
      obtain rfl := Node.dir.inj (Option.some.inj (hdir.symm.trans hdir'))
      obtain ⟨above, name, node, rfl, hentered, hget, hshows⟩ := (Node.sees_iff (by decide)).1 hsees
      cases hshows with
      | file content =>
          refine ⟨above, name, (isEntered_iff hdir).2 hentered, rfl, .inl ⟨content, ?_⟩⟩
          rw [content?_eq_some_iff, node?_append hdir, hget]
  | link hroot' hdir' hsees hgoal hinside hcontent =>
      obtain rfl := Except.ok.inj (hroot.symm.trans hroot')
      obtain rfl := Node.dir.inj (Option.some.inj (hdir.symm.trans hdir'))
      obtain ⟨above, name, node, rfl, hentered, hget, hshows⟩ := (Node.sees_iff (by decide)).1 hsees
      cases hshows with
      | link target =>
          refine ⟨above, name, (isEntered_iff hdir).2 hentered, rfl,
            .inr ⟨⟨target, ?_⟩, _, _, hgoal, hinside, hcontent⟩⟩
          rw [node?_append hdir, hget]

theorem mem_collect_of_isInSight {files : List Path} (hroot : disk.resolve root = .ok inside)
    (hfind : disk.find root = .ok inside) (hdir : disk.node? inside = some (.dir entries))
    (hcollect : disk.collect root = .ok files) (h : disk.IsInSight root inside path) :
    path ∈ files := by
  obtain ⟨hfailure, hvisits⟩ := walk_of_dir hfind hdir
  obtain ⟨-, hfiles⟩ := exists_of_collect hcollect
  have hdone : (Node.walk root entries).failure = none := by
    rw [← hfailure]
    simp only [collect] at hcollect
    split at hcollect
    · cases hcollect
    next hnone => exact hnone
  have collected : ∀ {visit : Visit}, Node.Sees entries visit.place visit.sight →
      disk.collects root visit = true → root.descend visit.place ∈ files := by
    intro visit hsees hcollects
    rw [hfiles]
    refine List.mem_map.2 ⟨visit, List.mem_filter.2 ⟨hvisits visit ?_, hcollects⟩, rfl⟩
    exact Node.mem_walk_of_sees hsees hdone
  obtain ⟨above, name, hentered, rfl, ⟨content, hcontent⟩ |
    ⟨⟨target, hlink⟩, goal, content, hgoal, hinside, hcontent⟩⟩ := h
  · rw [content?_eq_some_iff, node?_append hdir] at hcontent
    exact @collected ⟨above ++ [name], .file⟩ ((Node.sees_iff (by simp)).2
      ⟨above, name, _, rfl, (isEntered_iff hdir).1 hentered, hcontent, .file content⟩) rfl
  · rw [node?_append hdir] at hlink
    refine @collected ⟨above ++ [name], .link⟩ ((Node.sees_iff (by simp)).2
      ⟨above, name, _, rfl, (isEntered_iff hdir).1 hentered, hlink, .link target⟩) ?_
    simp only [collects, hroot, leadsInside_of_resolve hgoal hinside hcontent]

/-- Where a directory that is entered cannot be listed by its path, nothing is collected. -/
theorem collect_of_long (hwf : disk.top.isWellFormed = true)
    (hroot : disk.resolve root = .ok inside) (hdir : disk.node? inside = some (.dir entries))
    (hentered : disk.IsEntered inside place) (hlong : maxPath < (root.descend place).bytes.length) :
    ∃ place, disk.IsEntered inside place ∧ maxPath < (root.descend place).bytes.length ∧
      disk.collect root = .error ⟨root.descend place, .nameTooLong⟩ := by
  -- the root itself is the first directory to be listed
  by_cases hshort : root.bytes.length ≤ maxPath
  · have hfind := find_of_resolve hroot hshort
    cases hfailure : (Node.walk root entries).failure with
    | none =>
        have hne : place ≠ [] := by
          rintro rfl
          exact absurd hshort (Nat.not_le_of_lt hlong)
        have hle := Node.length_le_of_entered ((isEntered_iff hdir).1 hentered) hne hfailure
        exact absurd hle (Nat.not_le_of_lt hlong)
    | some cause =>
        obtain ⟨stop, hstop, hstops, rfl⟩ := Node.exists_entered_of_failure
          (Node.isWellFormed_of_get? hwf hdir) hfailure
        refine ⟨stop, (isEntered_iff hdir).2 hstop, hstops, ?_⟩
        simp only [collect, (walk_of_dir hfind hdir).1, hfailure]
  · have hlong := Nat.lt_of_not_le hshort
    refine ⟨[], isEntered_nil disk inside, hlong, ?_⟩
    simp only [collect, walk, find_of_long hroot hlong]
    rfl

/-- If every directory that is entered can be listed by its path, a walk of a directory collects
    exactly what is in sight, and no path twice. Otherwise it fails at a directory whose path is
    too long. -/
theorem collect_exactly (hwf : disk.top.isWellFormed = true)
    (hroot : disk.resolve root = .ok inside) (hdir : disk.node? inside = some (.dir entries)) :
    ((∀ place, disk.IsEntered inside place → (root.descend place).bytes.length ≤ maxPath) →
      ∃ files, disk.collect root = .ok files ∧ files.Nodup ∧
        ∀ path, path ∈ files ↔ disk.IsInSight root inside path) ∧
    ((∃ place, disk.IsEntered inside place ∧ maxPath < (root.descend place).bytes.length) →
      ∃ place, disk.IsEntered inside place ∧ maxPath < (root.descend place).bytes.length ∧
        disk.collect root = .error ⟨root.descend place, .nameTooLong⟩) := by
  constructor
  · intro hfits
    have hfind := find_of_resolve hroot (hfits [] (isEntered_nil disk inside))
    have hdone : (disk.walk root).failure = none := by
      rw [(walk_of_dir hfind hdir).1, Option.eq_none_iff_forall_ne_some]
      intro cause hcause
      obtain ⟨place, hentered, hlong, -⟩ := Node.exists_entered_of_failure
        (Node.isWellFormed_of_get? hwf hdir) hcause
      exact absurd (hfits place ((isEntered_iff hdir).2 hentered)) (Nat.not_le_of_lt hlong)
    have hcollect : ∃ files, disk.collect root = .ok files := by
      simp only [collect, hdone]
      exact ⟨_, rfl⟩
    obtain ⟨files, hcollect⟩ := hcollect
    refine ⟨files, hcollect, nodup_collect hwf hcollect, fun path => ⟨fun hpath => ?_, ?_⟩⟩
    · exact isInSight_of_collected hfind hdir (collected_of_mem_collect hwf hcollect hpath)
    · exact mem_collect_of_isInSight hroot hfind hdir hcollect
  · rintro ⟨place, hentered, hlong⟩
    exact collect_of_long hwf hroot hdir hentered hlong

/-- In a site without directories all files and links to them are collected. -/
theorem collect_exactly_aliasedSite :
    (aliasedSite []).top.isWellFormed = true ∧
      (aliasedSite []).resolve aliasedSiteRoot = .ok [Utf8.encode ['s']] ∧
      ∀ path, path ∈ aliasedSiteFiles ↔
        (aliasedSite []).IsInSight aliasedSiteRoot [Utf8.encode ['s']] path := by
  have hroot : (aliasedSite []).resolve aliasedSiteRoot = .ok [Utf8.encode ['s']] := rfl
  have hdir : (aliasedSite []).node? [Utf8.encode ['s']] = some (.dir _) := rfl
  have hfits : ∀ place, (aliasedSite []).IsEntered [Utf8.encode ['s']] place →
      (aliasedSiteRoot.descend place).bytes.length ≤ maxPath := by
    intro place hentered
    cases (isEntered_iff hdir).1 hentered with
    | start => decide +kernel
    | down hentry =>
        -- none of the three entries is a directory
        rcases Node.lookup_cons_cases hentry with ⟨-, hnode⟩ | hentry
        · cases hnode
        rcases Node.lookup_cons_cases hentry with ⟨-, hnode⟩ | hentry
        · cases hnode
        rcases Node.lookup_cons_cases hentry with ⟨-, hnode⟩ | hentry
        · cases hnode
        · cases hentry
  obtain ⟨files, hcollect, -, hfiles⟩ := (collect_exactly (isWellFormed_aliasedSite []) hroot hdir).1 hfits
  obtain rfl := Except.ok.inj ((collect_aliasedSite []).symm.trans hcollect)
  exact ⟨isWellFormed_aliasedSite [], hroot, hfiles⟩

/-- A directory with a page and a site, which holds a script. -/
def nestedSite : Disk where
  top := .dir [
    (Utf8.encode ['b', '.', 'm', 'd'], .file []),
    (Utf8.encode ['s', 'i', 't', 'e'], .dir [(Utf8.encode ['a', '.', 'j', 's'], .file [])])]
  current := []

/-- A path of the current directory that leaves no room for the path of the site. -/
def dottedRoot : Path := ⟨(List.replicate 2046 [Path.dot, Path.slash]).flatten⟩

/-- The page and the script are in sight of the dotted root, and yet nothing is collected. -/
theorem collect_dottedRoot :
    nestedSite.top.isWellFormed = true ∧ nestedSite.resolve dottedRoot = .ok [] ∧
      (∃ entries, nestedSite.node? [] = some (.dir entries)) ∧
      nestedSite.IsInSight dottedRoot [] (dottedRoot.descend [Utf8.encode ['b', '.', 'm', 'd']]) ∧
      ∀ files, nestedSite.collect dottedRoot ≠ .ok files := by
  have hwf : nestedSite.top.isWellFormed = true := by decide +kernel
  have hroot : nestedSite.resolve dottedRoot = .ok [] := by decide +kernel
  have hdir : nestedSite.node? [] = some (.dir _) := rfl
  have hsite : nestedSite.node? [Utf8.encode ['s', 'i', 't', 'e']] = some (.dir _) := rfl
  have hskip : Filter.isSkippedDirName (Utf8.encode ['s', 'i', 't', 'e']) = false := by
    decide +kernel
  have hentry := (node?_concat hdir _).symm.trans hsite
  have hentered : nestedSite.IsEntered [] [Utf8.encode ['s', 'i', 't', 'e']] :=
    (isEntered_iff hdir).2 (.down hentry hskip .start)
  have hlong : maxPath < (dottedRoot.descend [Utf8.encode ['s', 'i', 't', 'e']]).bytes.length := by
    decide +kernel
  refine ⟨hwf, hroot, ⟨_, hdir⟩, ⟨[], _, isEntered_nil _ _, rfl, .inl ⟨[], ?_⟩⟩, ?_⟩
  · exact content?_eq_some_iff.2 rfl
  · intro files hfiles
    obtain ⟨place, -, -, hcollect⟩ := collect_of_long hwf hroot hdir hentered hlong
    rw [hfiles] at hcollect
    cases hcollect

end Disk

end LicenseStamp

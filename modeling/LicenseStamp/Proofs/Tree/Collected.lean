import LicenseStamp.Proofs.Tree.WellFormed

/-! # What a walk collects

A collected path is the root itself, a file in real directories below it, or a link below it
that leads to a file at or below it. So a collected path leads to a regular file at or below
the location of the root, if it leads anywhere.
-/

namespace LicenseStamp

namespace Disk

variable {disk : Disk} {root path : Path}

/-- A path that a walk from a root collects. -/
inductive Collected (disk : Disk) (root : Path) : Path → Prop where
  /-- The root is a file. -/
  | start {inside : Location} {content : Bytes} (hroot : disk.find root = .ok inside)
      (hcontent : disk.content? inside = some content) : Collected disk root root
  /-- The walk sees a file at a place. -/
  | file {inside place : Location} {entries : List (Bytes × Node)}
      (hroot : disk.find root = .ok inside) (hdir : disk.node? inside = some (.dir entries))
      (hsees : Node.Sees entries place .file) : Collected disk root (root.descend place)
  /-- The walk sees a link at a place, and the link leads to a file inside. -/
  | link {inside place goal : Location} {entries : List (Bytes × Node)} {content : Bytes}
      (hroot : disk.find root = .ok inside) (hdir : disk.node? inside = some (.dir entries))
      (hsees : Node.Sees entries place .link)
      (hgoal : disk.resolve (root.descend place) = .ok goal) (hinside : inside <+: goal)
      (hcontent : disk.content? goal = some content) : Collected disk root (root.descend place)

theorem bytes_ne_nil_of_find {goal : Location} (h : disk.find path = .ok goal) :
    path.bytes ≠ [] :=
  (follow_of_way (way_of_find h).2).1

/-- Where finding and resolving a path both succeed they agree. -/
theorem find_eq_resolve {goal other : Location} (hfind : disk.find path = .ok goal)
    (hresolve : disk.resolve path = .ok other) : goal = other :=
  (leadsTo_of_find hfind).unique (leadsTo_of_resolve hresolve)

theorem leadsInside_eq_true {inside : Location} (h : disk.leadsInside inside path = true) :
    ∃ goal content, disk.resolve path = .ok goal ∧ inside <+: goal ∧
      disk.content? goal = some content := by
  unfold leadsInside at h
  split at h
  next goal hgoal =>
    split at h
    next content hnode =>
      exact ⟨goal, content, hgoal, List.isPrefixOf_iff_prefix.1 h, content?_eq_some_iff.2 hnode⟩
    · cases h
  · cases h

theorem leadsInside_of_collects {inside place : Location} (hroot : disk.find root = .ok inside)
    (h : disk.collects root ⟨place, .link⟩ = true) :
    disk.leadsInside inside (root.descend place) = true := by
  unfold collects at h
  split at h
  · contradiction
  · split at h
    next other hother =>
      rw [find_eq_resolve hroot hother]
      exact h
    · cases h
  · contradiction

theorem node?_of_sees {inside place : Location} {entries : List (Bytes × Node)} {sight : Sight}
    (hdir : disk.entries? inside = some entries) (hsees : Node.Sees entries place sight) :
    disk.node? inside = some (.dir entries) := by
  unfold entries? at hdir
  split at hdir
  · obtain rfl := Option.some.inj hdir
    obtain ⟨name, rest, -, hsome⟩ := hsees.exists_cons
    cases hsome
  next found hnode => rw [hnode, Option.some.inj hdir]
  · cases hdir

theorem areWellFormed_of_entries? (hwf : disk.top.isWellFormed = true) {location : Location}
    {entries : List (Bytes × Node)} (hdir : disk.entries? location = some entries) :
    Node.areWellFormed entries = true := by
  unfold entries? at hdir
  split at hdir
  · obtain rfl := Option.some.inj hdir
    rfl
  next found hnode =>
    obtain rfl := Option.some.inj hdir
    exact Node.isWellFormed_of_get? hwf hnode
  · cases hdir

/-- What a walk meets before it looks below its root. -/
def walkStart (disk : Disk) (root : Path) (inside : Location) : Walk :=
  if disk.isLink root then .single [] .link
  else
    match disk.node? inside with
    | some (.file _) => .single [] .file
    | _ => ⟨[], none⟩

theorem walk_of_find {inside : Location} (hroot : disk.find root = .ok inside) :
    disk.walk root =
      match disk.entries? inside with
      | some entries => (disk.walkStart root inside).andThen (Node.walk root entries)
      | none => disk.walkStart root inside := by
  simp only [walk, hroot]
  rfl

theorem walkStart_cases (disk : Disk) (root : Path) (inside : Location) :
    disk.walkStart root inside = .single [] .link ∨
      (disk.walkStart root inside = .single [] .file ∧
        ∃ content, disk.content? inside = some content) ∨
      disk.walkStart root inside = ⟨[], none⟩ := by
  unfold walkStart
  split
  · exact .inl rfl
  · split
    next content hnode => exact .inr (.inl ⟨rfl, content, content?_eq_some_iff.2 hnode⟩)
    · exact .inr (.inr rfl)

/-- What a walk meets is its start or seen below its start. -/
theorem mem_walk (hwf : disk.top.isWellFormed = true) {inside : Location}
    (hroot : disk.find root = .ok inside) {visit : Visit}
    (hvisit : visit ∈ (disk.walk root).visits) :
    visit ∈ (disk.walkStart root inside).visits ∨
      ∃ entries, disk.node? inside = some (.dir entries) ∧
        Node.Sees entries visit.place visit.sight := by
  rw [walk_of_find hroot] at hvisit
  split at hvisit
  next entries hdir =>
    rcases Walk.mem_visits_andThen hvisit with hmem | hmem
    · exact .inl hmem
    · have hsees := Node.sees_of_mem_walk (areWellFormed_of_entries? hwf hdir) hmem
      exact .inr ⟨entries, node?_of_sees hdir hsees, hsees⟩
  · exact .inl hvisit

theorem exists_of_collect {files : List Path} (h : disk.collect root = .ok files) :
    (∃ inside, disk.find root = .ok inside) ∧
      files = ((disk.walk root).visits.filter (disk.collects root)).map
        fun visit => root.descend visit.place := by
  simp only [collect] at h
  split at h
  · cases h
  next hfailure =>
    refine ⟨?_, (Except.ok.inj h).symm⟩
    cases hroot : disk.find root with
    | ok inside => exact ⟨inside, rfl⟩
    | error cause => simp [walk, hroot, Walk.broken] at hfailure

theorem collected_of_mem_collect (hwf : disk.top.isWellFormed = true) {files : List Path}
    (h : disk.collect root = .ok files) (hpath : path ∈ files) : disk.Collected root path := by
  obtain ⟨⟨inside, hroot⟩, rfl⟩ := exists_of_collect h
  obtain ⟨visit, hvisit, rfl⟩ := List.mem_map.1 hpath
  obtain ⟨hmem, hcollects⟩ := List.mem_filter.1 hvisit
  rcases mem_walk hwf hroot hmem with hstart | ⟨entries, hdir, hsees⟩
  · rcases walkStart_cases disk root inside with heq | ⟨heq, content, hcontent⟩ | heq
    · obtain rfl := List.mem_singleton.1 (heq ▸ hstart)
      obtain ⟨goal, content, hgoal, -, hcontent⟩ :=
        leadsInside_eq_true (leadsInside_of_collects hroot hcollects)
      obtain rfl := find_eq_resolve hroot hgoal
      exact .start hroot hcontent
    · obtain rfl := List.mem_singleton.1 (heq ▸ hstart)
      exact .start hroot hcontent
    · rw [heq] at hstart
      cases hstart
  · obtain ⟨place, sight⟩ := visit
    cases sight with
    | file => exact .file hroot hdir hsees
    | passed => cases hcollects
    | link =>
        obtain ⟨goal, content, hgoal, hinside, hcontent⟩ :=
          leadsInside_eq_true (leadsInside_of_collects hroot hcollects)
        exact .link hroot hdir hsees hgoal hinside hcontent

/-- The path of a place leads from the location of the root down to it. -/
theorem leads_of_descend {inside place goal : Location} (hroot : disk.find root = .ok inside)
    (hne : place ≠ []) (hplace : ∀ name ∈ place, Bytes.isName name = true)
    (h : disk.LeadsTo (root.descend place) goal) :
    disk.Leads inside (place.map .enter) goal := by
  have hbytes := bytes_ne_nil_of_find hroot
  have hstart : startOf disk.current (root.descend place) = startOf disk.current root := by
    simp only [startOf, Path.isAbsolute_descend hbytes hplace]
  obtain ⟨front, hfront, hsteps⟩ := Path.exists_steps_descend hbytes
  rw [LeadsTo, hstart, hsteps place hne hplace] at h
  obtain ⟨middle, first, second⟩ := h.split
  have hmiddle : middle = inside := by
    have whole := leadsTo_of_find hroot
    rw [LeadsTo] at whole
    rcases hfront with heq | heq
    · exact first.unique (heq ▸ whole)
    · obtain ⟨other, first', last⟩ := (heq ▸ whole).split
      cases last.slash_inv.2
      exact first.unique first'
  exact hmiddle ▸ second

/-- The disk holds what is seen below the location of the root. -/
theorem exists_node?_of_sees {inside place : Location} {entries : List (Bytes × Node)}
    {sight : Sight} (hdir : disk.node? inside = some (.dir entries))
    (hsees : Node.Sees entries place sight) :
    ∃ node, disk.node? (inside ++ place) = some node ∧ sight.Shows node := by
  obtain ⟨node, hget, hshows⟩ := hsees.exists_get?
  have habove : disk.top.get? inside = some (.dir entries) := hdir
  exact ⟨node, by rw [node?, Node.get?_append, habove, Option.bind_some, hget], hshows⟩

theorem find_descend_of_sees_file {inside place goal : Location}
    {entries : List (Bytes × Node)} (hwf : disk.top.isWellFormed = true)
    (hroot : disk.find root = .ok inside) (hdir : disk.node? inside = some (.dir entries))
    (hsees : Node.Sees entries place .file) (hgoal : disk.find (root.descend place) = .ok goal) :
    goal = inside ++ place ∧ ∃ content, disk.content? goal = some content := by
  have hplace := hsees.isName (Node.isWellFormed_of_get? hwf hdir)
  obtain ⟨node, hnode, hshows⟩ := exists_node?_of_sees hdir hsees
  cases hshows with
  | file content =>
      have hway := leads_of_descend hroot hsees.ne_nil hplace (leadsTo_of_find hgoal)
      obtain rfl := hway.unique (leads_place hnode fun target => nofun)
      exact ⟨rfl, content, content?_eq_some_iff.2 hnode⟩

/-- A collected path leads to a file at or below the root, if it leads anywhere. -/
theorem Collected.inside {goal : Location} (hwf : disk.top.isWellFormed = true)
    (h : disk.Collected root path) (hgoal : disk.find path = .ok goal) :
    (∃ inside, disk.find root = .ok inside ∧ inside <+: goal) ∧
      ∃ content, disk.content? goal = some content := by
  cases h with
  | start hroot hcontent =>
      obtain rfl := Except.ok.inj (hroot.symm.trans hgoal)
      exact ⟨⟨_, hroot, List.prefix_rfl⟩, _, hcontent⟩
  | file hroot hdir hsees =>
      obtain ⟨rfl, hcontent⟩ := find_descend_of_sees_file hwf hroot hdir hsees hgoal
      exact ⟨⟨_, hroot, List.prefix_append _ _⟩, hcontent⟩
  | link hroot _ _ hresolve hinside hcontent =>
      obtain rfl := find_eq_resolve hgoal hresolve
      exact ⟨⟨_, hroot, hinside⟩, _, hcontent⟩

theorem nodup_places_walk (hwf : disk.top.isWellFormed = true) {inside : Location}
    (hroot : disk.find root = .ok inside) :
    ((disk.walk root).visits.map Visit.place).Nodup := by
  have hstart : ((disk.walkStart root inside).visits.map Visit.place).Nodup ∧
      ∀ visit ∈ (disk.walkStart root inside).visits, visit.place = [] := by
    rcases walkStart_cases disk root inside with heq | ⟨heq, -⟩ | heq <;> simp [heq, Walk.single]
  rw [walk_of_find hroot]
  split
  next entries hdir =>
    have hentries := areWellFormed_of_entries? hwf hdir
    refine Walk.nodup_andThen hstart.1 (Node.nodup_walk hentries) ?_
    intro visit hvisit later hlater
    rw [hstart.2 visit hvisit]
    exact (Node.sees_of_mem_walk hentries hlater).ne_nil.symm
  · exact hstart.1

theorem isName_of_mem_walk (hwf : disk.top.isWellFormed = true) {inside : Location}
    (hroot : disk.find root = .ok inside) {visit : Visit}
    (hvisit : visit ∈ (disk.walk root).visits) :
    ∀ name ∈ visit.place, Bytes.isName name = true := by
  rcases mem_walk hwf hroot hvisit with hstart | ⟨entries, hdir, hsees⟩
  · have hplace : visit.place = [] := by
      rcases walkStart_cases disk root inside with heq | ⟨heq, -⟩ | heq <;>
        simp_all [Walk.single]
    rw [hplace]
    exact fun name => nofun
  · exact hsees.isName (Node.isWellFormed_of_get? hwf hdir)

/-- A collected path spells a place below the root. -/
theorem exists_place_of_mem_collect (hwf : disk.top.isWellFormed = true) {files : List Path}
    (h : disk.collect root = .ok files) (hpath : path ∈ files) :
    ∃ place : Location, (∀ name ∈ place, Bytes.isName name = true) ∧ path = root.descend place := by
  obtain ⟨⟨inside, hroot⟩, rfl⟩ := exists_of_collect h
  obtain ⟨visit, hvisit, rfl⟩ := List.mem_map.1 hpath
  exact ⟨visit.place, isName_of_mem_walk hwf hroot (List.mem_filter.1 hvisit).1, rfl⟩

/-- A walk collects no path twice. -/
theorem nodup_collect (hwf : disk.top.isWellFormed = true) {files : List Path}
    (h : disk.collect root = .ok files) : files.Nodup := by
  obtain ⟨⟨inside, hroot⟩, rfl⟩ := exists_of_collect h
  have hplaces : (((disk.walk root).visits.filter (disk.collects root)).map Visit.place).Nodup :=
    (nodup_places_walk hwf hroot).sublist (List.filter_sublist.map _)
  have hcomp : (fun visit : Visit => root.descend visit.place) = root.descend ∘ Visit.place := rfl
  rw [hcomp, ← List.map_map]
  refine hplaces.map_on ?_
  intro first hfirst second hsecond hsame
  obtain ⟨visit, hvisit, rfl⟩ := List.mem_map.1 hfirst
  obtain ⟨other, hother, rfl⟩ := List.mem_map.1 hsecond
  exact Path.descend_inj (bytes_ne_nil_of_find hroot)
    (isName_of_mem_walk hwf hroot (List.mem_filter.1 hvisit).1)
    (isName_of_mem_walk hwf hroot (List.mem_filter.1 hother).1) hsame

/-- A site with a script, a link to a built script, and the built script itself in a directory
    that is never entered; another script lies beside the site. -/
def linkedSite : Disk where
  top := .dir [
    (Utf8.encode ['s'], .dir [
      (Utf8.encode ['a', '.', 'j', 's'], .file []),
      (Utf8.encode ['d', 'i', 's', 't'], .dir [(Utf8.encode ['z', '.', 'j', 's'], .file [])]),
      (Utf8.encode ['b', '.', 'j', 's'],
        .link (.ofText ['d', 'i', 's', 't', '/', 'z', '.', 'j', 's']))]),
    (Utf8.encode ['o', '.', 'j', 's'], .file [])]
  current := []

/-- The path of the site. -/
def linkedSiteRoot : Path := .ofText ['/', 's']

/-- The location of the built script. -/
def linkedSiteGoal : Location :=
  [Utf8.encode ['s'], Utf8.encode ['d', 'i', 's', 't'], Utf8.encode ['z', '.', 'j', 's']]

theorem isWellFormed_linkedSite : linkedSite.top.isWellFormed = true := rfl

theorem walk_linkedSite : linkedSite.walk linkedSiteRoot =
    ⟨[⟨[Utf8.encode ['a', '.', 'j', 's']], .file⟩, ⟨[Utf8.encode ['d', 'i', 's', 't']], .passed⟩,
      ⟨[Utf8.encode ['b', '.', 'j', 's']], .link⟩], none⟩ := by
  have hroot : linkedSite.find linkedSiteRoot = .ok [Utf8.encode ['s']] := rfl
  have hlink : linkedSite.isLink linkedSiteRoot = false := rfl
  have hdist : Filter.isSkippedDirName (Utf8.encode ['d', 'i', 's', 't']) = true := rfl
  have hentries : linkedSite.entries? [Utf8.encode ['s']] = some _ := rfl
  have hnode : linkedSite.node? [Utf8.encode ['s']] = some (.dir _) := rfl
  simp only [walk_of_find hroot, hentries, walkStart, hlink, hnode, Node.walk, hdist, Walk.andThen,
    Walk.single, Bool.false_eq_true, if_false, if_true, List.nil_append, List.singleton_append]

/-- The link is collected, but not the file that it leads to. -/
theorem collect_linkedSite : linkedSite.collect linkedSiteRoot =
    .ok [.ofText ['/', 's', '/', 'a', '.', 'j', 's'], .ofText ['/', 's', '/', 'b', '.', 'j', 's']] := by
  rw [collect, walk_linkedSite]
  rfl

theorem find_linkedSite_link :
    linkedSite.find (.ofText ['/', 's', '/', 'b', '.', 'j', 's']) = .ok linkedSiteGoal := rfl

theorem content?_linkedSiteGoal : linkedSite.content? linkedSiteGoal = some [] := rfl

/-- A site with a script, a link to the script, and a page with some content. -/
def aliasedSite (page : Bytes) : Disk where
  top := .dir [
    (Utf8.encode ['s'], .dir [
      (Utf8.encode ['a', '.', 'j', 's'], .file []),
      (Utf8.encode ['l', '.', 'j', 's'], .link (.ofText ['a', '.', 'j', 's'])),
      (Utf8.encode ['p', '.', 'm', 'd'], .file page)])]
  current := []

/-- The path of the site with the link. -/
def aliasedSiteRoot : Path := .ofText ['/', 's']

/-- The paths of the script, the link and the page. -/
def aliasedSiteFiles : List Path :=
  [.ofText ['/', 's', '/', 'a', '.', 'j', 's'], .ofText ['/', 's', '/', 'l', '.', 'j', 's'],
    .ofText ['/', 's', '/', 'p', '.', 'm', 'd']]

/-- The location of the script. -/
def aliasedSiteScript : Location := [Utf8.encode ['s'], Utf8.encode ['a', '.', 'j', 's']]

/-- The location of the page. -/
def aliasedSitePage : Location := [Utf8.encode ['s'], Utf8.encode ['p', '.', 'm', 'd']]

theorem isWellFormed_aliasedSite (page : Bytes) :
    (aliasedSite page).top.isWellFormed = true := by
  have hempty : (aliasedSite []).top.isWellFormed = true := rfl
  rwa [← Node.isWellFormed_shape] at hempty ⊢

theorem collect_aliasedSite (page : Bytes) :
    (aliasedSite page).collect aliasedSiteRoot = .ok aliasedSiteFiles := by
  have hshape : (aliasedSite page).shape = (aliasedSite []).shape := rfl
  have hroot : (aliasedSite []).find aliasedSiteRoot = .ok [Utf8.encode ['s']] := rfl
  have hlink : (aliasedSite []).isLink aliasedSiteRoot = false := rfl
  have hentries : (aliasedSite []).entries? [Utf8.encode ['s']] = some _ := rfl
  have hnode : (aliasedSite []).node? [Utf8.encode ['s']] = some (.dir _) := rfl
  rw [collect_of_shape hshape, collect, walk_of_find hroot, hentries]
  simp only [walkStart, hlink, hnode, Node.walk, Walk.andThen, Walk.single, Bool.false_eq_true,
    if_false, List.nil_append, List.singleton_append]
  rfl

/-- The script and the link lead to one file. -/
theorem find_aliasedSite (page : Bytes) :
    (aliasedSite page).find (.ofText ['/', 's', '/', 'a', '.', 'j', 's']) = .ok aliasedSiteScript ∧
      (aliasedSite page).find (.ofText ['/', 's', '/', 'l', '.', 'j', 's']) =
        .ok aliasedSiteScript ∧
      (aliasedSite page).find (.ofText ['/', 's', '/', 'p', '.', 'm', 'd']) = .ok aliasedSitePage := by
  have hshape : (aliasedSite page).shape = (aliasedSite []).shape := rfl
  simp only [find_of_shape hshape]
  exact ⟨rfl, rfl, rfl⟩

theorem content?_aliasedSite (page : Bytes) :
    (aliasedSite page).content? aliasedSiteScript = some [] ∧
      (aliasedSite page).content? aliasedSitePage = some page := by
  have hscript : (aliasedSite page).node? aliasedSiteScript = some (.file []) := rfl
  have hpage : (aliasedSite page).node? aliasedSitePage = some (.file page) := rfl
  exact ⟨content?_eq_some_iff.2 hscript, content?_eq_some_iff.2 hpage⟩

end Disk

end LicenseStamp

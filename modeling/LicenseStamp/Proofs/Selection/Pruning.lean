import LicenseStamp.Proofs.Selection.Rules
import LicenseStamp.Proofs.Tree.Coverage
import LicenseStamp.Proofs.Tree.Operations

/-! # Pruning and filtering

A walk does not enter a directory with a skipped name, and the skip rules look for such a name on
the finished path of a file. Below one root the two agree about every file, however the root is
spelled and wherever it lies.
-/

namespace LicenseStamp

namespace Disk

variable {disk : Disk} {root path : Path} {inside above place : Location} {name content : Bytes}
  {entries : List (Bytes × Node)} {node : Node} {files : List Path}

/-- Real directories lead down to whatever a tree holds, so the directories above it are entered
    unless one has a skipped name. -/
theorem isEntered_iff_of_node? (hnode : disk.node? (inside ++ (above ++ [name])) = some node) :
    disk.IsEntered inside above ↔ above.any Filter.isSkippedDirName = false := by
  constructor
  · intro h
    rw [List.any_eq_false]
    intro dir hmem
    obtain ⟨front, rest, rfl⟩ := List.append_of_mem hmem
    have hskip := (h front dir ⟨rest, by simp⟩).2
    rw [hskip]
    exact Bool.false_ne_true
  · intro h front dir hprefix
    obtain ⟨rest, rfl⟩ := hprefix
    constructor
    · have hget : ((disk.node? (inside ++ (front ++ [dir]))).bind fun node =>
          node.get? (rest ++ [name])) = some node := by
        rw [node?, ← Node.get?_append, ← hnode, node?]
        simp only [List.append_assoc]
      obtain ⟨parent, hparent, hbelow⟩ := Option.bind_eq_some_iff.1 hget
      -- something lies below it, so it is a directory
      obtain ⟨first, more, hmore⟩ := List.exists_cons_of_ne_nil (List.concat_ne_nil name rest)
      rw [hmore] at hbelow
      obtain ⟨inner, -, rfl, -, -⟩ := Node.get?_cons_eq_some_iff.1 hbelow
      exact ⟨inner, hparent⟩
    · have hmem : dir ∈ front ++ [dir] ++ rest := by simp
      simpa using List.any_eq_false.1 h dir hmem

theorem isName_of_node? (hwf : disk.top.isWellFormed = true)
    (hnode : disk.node? (inside ++ place) = some node) :
    ∀ name ∈ place, Bytes.isName name = true :=
  fun name h => Node.isName_of_get? hwf hnode name (List.mem_append_right _ h)

/-- What is in sight of a root is accepted below it. -/
theorem IsInSight.judge_skipDir (hwf : disk.top.isWellFormed = true) (hbytes : root.bytes ≠ [])
    (h : disk.IsInSight root inside path) :
    (Filter.skipDir root : Filter Empty).judge path = .ok .pass := by
  obtain ⟨above, name, hentered, rfl, hshown⟩ := h
  obtain ⟨node, hnode⟩ : ∃ node, disk.node? (inside ++ (above ++ [name])) = some node := by
    rcases hshown with ⟨content, hcontent⟩ | ⟨⟨target, hlink⟩, -⟩
    · exact ⟨_, content?_eq_some_iff.1 hcontent⟩
    · exact ⟨_, hlink⟩
  rw [Filter.judge_skipDir_eq_pass_iff,
    Filter.isInSkippedDir_descend hbytes (isName_of_node? hwf hnode), List.dropLast_concat]
  exact (isEntered_iff_of_node? hnode).1 hentered

/-- A file that is accepted below a root is in sight of it. -/
theorem isInSight_of_judge_skipDir (hwf : disk.top.isWellFormed = true) (hbytes : root.bytes ≠ [])
    (hdir : disk.node? inside = some (.dir entries))
    (hcontent : disk.content? (inside ++ place) = some content)
    (h : (Filter.skipDir root : Filter Empty).judge (root.descend place) = .ok .pass) :
    disk.IsInSight root inside (root.descend place) := by
  have hnode := content?_eq_some_iff.1 hcontent
  rcases List.eq_nil_or_concat place with rfl | ⟨above, name, rfl⟩
  · rw [List.append_nil, hdir] at hnode
    cases hnode
  · rw [List.concat_eq_append] at h hnode hcontent ⊢
    rw [Filter.judge_skipDir_eq_pass_iff,
      Filter.isInSkippedDir_descend hbytes (isName_of_node? hwf hnode), List.dropLast_concat] at h
    exact ⟨above, name, (isEntered_iff_of_node? hnode).2 h, rfl, .inl ⟨content, hcontent⟩⟩

theorem bytes_ne_nil_of_resolve (h : disk.resolve root = .ok inside) : root.bytes ≠ [] :=
  (follow_of_way (way_of_resolve h)).1

/-- A walk succeeds if it can list every directory that it enters. -/
theorem exists_collect_of_fits (hwf : disk.top.isWellFormed = true)
    (hfind : disk.find root = .ok inside) (hdir : disk.node? inside = some (.dir entries))
    (hfits : ∀ place, disk.IsEntered inside place → (root.descend place).bytes.length ≤ maxPath) :
    ∃ files, disk.collect root = .ok files := by
  have hfailure := (walk_of_dir hfind hdir).1
  cases hbroken : (Node.walk root entries).failure with
  | none =>
      simp only [collect, hfailure, hbroken]
      exact ⟨_, rfl⟩
  | some cause =>
      obtain ⟨place, hentered, hlong, -⟩ :=
        Node.exists_entered_of_failure (Node.isWellFormed_of_get? hwf hdir) hbroken
      have hfit := hfits place ((isEntered_iff hdir).2 hentered)
      omega

/-- A walk of a directory collects only what the rule for skipped directories accepts. If it can
    list every directory that it enters, it collects each file in real directories that the rule
    accepts. Otherwise it fails at a directory whose path is too long. -/
theorem collect_agrees_with_skipDir (hwf : disk.top.isWellFormed = true)
    (hroot : disk.resolve root = .ok inside) (hdir : disk.node? inside = some (.dir entries)) :
    (∀ files, disk.collect root = .ok files → ∀ path ∈ files,
      (Filter.skipDir root : Filter Empty).judge path = .ok .pass) ∧
    ((∀ place, disk.IsEntered inside place → (root.descend place).bytes.length ≤ maxPath) →
      ∃ files, disk.collect root = .ok files ∧
        ∀ place content, disk.content? (inside ++ place) = some content →
          (root.descend place ∈ files ↔
            (Filter.skipDir root : Filter Empty).judge (root.descend place) = .ok .pass)) ∧
    ((∃ place, disk.IsEntered inside place ∧ maxPath < (root.descend place).bytes.length) →
      ∃ place, disk.IsEntered inside place ∧ maxPath < (root.descend place).bytes.length ∧
        disk.collect root = .error ⟨root.descend place, .nameTooLong⟩) := by
  have hbytes := bytes_ne_nil_of_resolve hroot
  have accepted : ∀ files, disk.collect root = .ok files → ∀ path ∈ files,
      (Filter.skipDir root : Filter Empty).judge path = .ok .pass := by
    intro files hcollect path hpath
    obtain ⟨⟨goal, hfind⟩, -⟩ := exists_of_collect hcollect
    obtain rfl := find_eq_resolve hfind hroot
    have hcollected := collected_of_mem_collect hwf hcollect hpath
    exact (isInSight_of_collected hfind hdir hcollected).judge_skipDir hwf hbytes
  refine ⟨accepted, fun hfits => ?_, ?_⟩
  · have hfind := find_of_resolve hroot (hfits [] (isEntered_nil disk inside))
    obtain ⟨files, hcollect⟩ := exists_collect_of_fits hwf hfind hdir hfits
    refine ⟨files, hcollect, fun place content hcontent => ⟨accepted files hcollect _, fun h => ?_⟩⟩
    exact mem_collect_of_isInSight hroot hfind hdir hcollect
      (isInSight_of_judge_skipDir hwf hbytes hdir hcontent h)
  · rintro ⟨place, hentered, hlong⟩
    exact collect_of_long hwf hroot hdir hentered hlong

/-- On the site with a built script the walk and the rule agree about every file. -/
theorem collect_agrees_with_skipDir_linkedSite :
    linkedSite.top.isWellFormed = true ∧
      linkedSite.resolve linkedSiteRoot = .ok [Utf8.encode ['s']] ∧
      ∃ files, linkedSite.collect linkedSiteRoot = .ok files ∧
        ∀ place content, linkedSite.content? ([Utf8.encode ['s']] ++ place) = some content →
          (linkedSiteRoot.descend place ∈ files ↔
            (Filter.skipDir linkedSiteRoot : Filter Empty).judge (linkedSiteRoot.descend place) =
              .ok .pass) := by
  have hroot : linkedSite.resolve linkedSiteRoot = .ok [Utf8.encode ['s']] := rfl
  have hdir : linkedSite.node? [Utf8.encode ['s']] = some (.dir _) := rfl
  have hdist : Filter.isSkippedDirName (Utf8.encode ['d', 'i', 's', 't']) = true := rfl
  have hfits : ∀ place, linkedSite.IsEntered [Utf8.encode ['s']] place →
      (linkedSiteRoot.descend place).bytes.length ≤ maxPath := by
    intro place hentered
    cases (isEntered_iff hdir).1 hentered with
    | start => decide +kernel
    | down hentry hname =>
        -- the only directory among the three entries is not entered
        rcases Node.lookup_cons_cases hentry with ⟨-, hnode⟩ | hentry
        · cases hnode
        rcases Node.lookup_cons_cases hentry with ⟨rfl, -⟩ | hentry
        · rw [hdist] at hname
          cases hname
        rcases Node.lookup_cons_cases hentry with ⟨-, hnode⟩ | hentry
        · cases hnode
        · cases hentry
  exact ⟨isWellFormed_linkedSite, hroot,
    (collect_agrees_with_skipDir isWellFormed_linkedSite hroot hdir).2.1 hfits⟩

/-- The page is accepted below the dotted root, and yet it is not collected. -/
theorem judge_skipDir_dottedRoot :
    nestedSite.top.isWellFormed = true ∧ nestedSite.resolve dottedRoot = .ok [] ∧
      (∃ entries, nestedSite.node? [] = some (.dir entries)) ∧
      nestedSite.content? [Utf8.encode ['b', '.', 'm', 'd']] = some [] ∧
      (Filter.skipDir dottedRoot : Filter Empty).judge
        (dottedRoot.descend [Utf8.encode ['b', '.', 'm', 'd']]) = .ok .pass ∧
      ∀ files, nestedSite.collect dottedRoot = .ok files →
        dottedRoot.descend [Utf8.encode ['b', '.', 'm', 'd']] ∉ files := by
  have hwf : nestedSite.top.isWellFormed = true := rfl
  have hroot : nestedSite.resolve dottedRoot = .ok [] := by decide +kernel
  have hdir : nestedSite.node? [] = some (.dir _) := rfl
  have hsite : nestedSite.node? [Utf8.encode ['s', 'i', 't', 'e']] = some (.dir _) := rfl
  have hname : Bytes.isName (Utf8.encode ['b', '.', 'm', 'd']) = true := by decide +kernel
  have hentered : nestedSite.IsEntered [] [Utf8.encode ['s', 'i', 't', 'e']] := by
    have hentry := (node?_concat hdir _).symm.trans hsite
    exact (isEntered_iff hdir).2 (.down hentry rfl .start)
  have hlong : maxPath < (dottedRoot.descend [Utf8.encode ['s', 'i', 't', 'e']]).bytes.length := by
    decide +kernel
  refine ⟨hwf, hroot, ⟨_, hdir⟩, content?_eq_some_iff.2 rfl, ?_, ?_⟩
  · rw [Filter.judge_skipDir_eq_pass_iff,
      Filter.isInSkippedDir_descend (bytes_ne_nil_of_resolve hroot) (by simpa using hname)]
    rfl
  · intro files hfiles
    obtain ⟨place, -, -, hcollect⟩ := collect_of_long hwf hroot hdir hentered hlong
    rw [hfiles] at hcollect
    cases hcollect

end Disk

end LicenseStamp

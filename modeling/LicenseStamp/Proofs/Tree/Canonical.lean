import LicenseStamp.Proofs.Path.Components
import LicenseStamp.Proofs.Tree.Coverage
import LicenseStamp.Proofs.Tree.Root

/-! # Roots are canonical

The root that a run gets is spelled by the names on the way down to its directory, all of them
names of real directories. Following links keeps to locations whose own path is short enough for a
request, as each entry on the way is asked for by that path. So the root of a root is that root
itself. The current directory is not asked for: it may lie too deep for any request, and then it is
no root, nor is a file in it that is read by a relative path resolved.
-/

namespace LicenseStamp

/-- Whether a name can stand in the path of a request. -/
def Bytes.isAskable (name : Bytes) : Bool :=
  decide (name.length ≤ Disk.maxName) && !name.contains 0

/-! ## Paths of locations -/

namespace Location

variable {location above : Location}

theorem split_path (hnames : ∀ name ∈ location, Bytes.isName name = true) (hne : location ≠ []) :
    location.path.split = (.root, location) := by
  have hslash : ∀ name ∈ location, Path.slash ∉ name := fun name h =>
    Bytes.slash_not_mem_of_isName (hnames name h)
  have hsplit : location.path.split = (.root, (Path.joinPieces location).splitOn Path.slash) :=
    Path.split_append_slash [] (Path.joinPieces location)
  rw [hsplit, Path.joinPieces_eq_intercalate, List.splitOn_intercalate Path.slash hslash hne]

/-- The path of a location has the names of the location as its components. -/
theorem components_path (hnames : ∀ name ∈ location, Bytes.isName name = true) :
    location.path.components = .root :: location.map .name := by
  by_cases hne : location = []
  · rw [hne]
    rfl
  · have hsolid : Path.solid location = location := List.filter_eq_self.2 fun name h => by
      rw [Bytes.isVoid_of_isName (hnames name h), Bool.not_false]
    rw [Path.components_eq, split_path hnames hne, hsolid,
      List.map_congr_left fun name h => Path.ofPiece_of_isName (hnames name h)]
    rfl

theorem steps_path (hnames : ∀ name ∈ location, Bytes.isName name = true) (hne : location ≠ []) :
    location.path.steps = location.map .enter := by
  rw [Path.steps, split_path hnames hne]
  exact List.map_congr_left fun name h => Step.ofPiece_of_isName (hnames name h)

theorem length_path_concat (location : Location) (name : Bytes) :
    location.path.bytes.length ≤ (location ++ [name] : Location).path.bytes.length := by
  by_cases hne : location = []
  · subst hne
    exact Nat.le_add_left 1 _
  · simp only [path, Path.ofPieces, Path.joinPieces_concat hne, List.length_cons, List.length_append]
    omega

/-- What is above a location has no longer path. -/
theorem length_path_le_of_above (h : above <+: location) :
    above.path.bytes.length ≤ location.path.bytes.length := by
  obtain ⟨rest, rfl⟩ := h
  induction rest generalizing above with
  | nil => rw [List.append_nil]
  | cons name rest ih =>
      have hrest : (above ++ [name] : Location).path.bytes.length ≤
          (above ++ [name] ++ rest : Location).path.bytes.length := ih
      rw [List.append_assoc, List.singleton_append] at hrest
      exact (length_path_concat above name).trans hrest

end Location

namespace Disk

variable {disk : Disk} {asked root : Path} {here goal location : Location}
  {entries : List (Bytes × Node)} {steps : List Step}

/-! ## Locations in reach -/

/-- Steps lead to a location whose path is short enough for a request, or back to where they
    started or above it. -/
theorem LeadsWithin.length_le_or_above {links : Nat}
    (way : disk.LeadsWithin links here steps goal) :
    goal.path.bytes.length ≤ maxPath ∨ goal <+: here := by
  induction way with
  | arrived => exact .inr (List.prefix_refl _)
  | slash _ _ ih | stay _ _ ih => exact ih
  | @up _ here _ _ _ _ ih => exact ih.imp_right fun h => h.trans (List.dropLast_prefix here)
  | enter _ _ _ hfits _ ih =>
      rcases ih with hlength | habove
      · exact .inl hlength
      · exact .inl ((Location.length_path_le_of_above habove).trans hfits.path_le)
  | link _ _ _ _ ih =>
      refine ih.imp_right fun h => ?_
      unfold startOf at h
      split at h
      · rw [List.prefix_nil.1 h]
        exact List.nil_prefix
      · exact h

/-- A path stands for a location whose own path is short enough for a request, unless it is the
    current directory or above. -/
theorem ResolvesTo.length_le_or_above (h : disk.ResolvesTo asked goal) :
    goal.path.bytes.length ≤ maxPath ∨ asked.isAbsolute = false ∧ goal <+: disk.current := by
  rcases h.leadsWithin.length_le_or_above with hlength | habove
  · exact .inl hlength
  · unfold startOf at habove
    split at habove
    · rw [List.prefix_nil.1 habove]
      exact .inl (by decide)
    next hrelative => exact .inr ⟨Bool.eq_false_iff.2 hrelative, habove⟩

theorem ResolvesTo.isReal (h : disk.ResolvesTo asked goal)
    (hcurrent : ∀ target, disk.node? disk.current ≠ some (.link target)) : disk.IsReal goal := by
  refine h.leadsTo.isReal fun hrelative => ?_
  obtain ⟨node, hnode⟩ := h.exists_start hrelative
  exact ⟨node, hnode, fun target same => hcurrent target (same ▸ hnode)⟩

/-! ## Paths that stand for themselves -/

theorem walkTo_path (hdir : disk.node? location = some (.dir entries))
    (hnames : ∀ name ∈ location, Bytes.isName name = true ∧ Bytes.isAskable name = true)
    (hlength : location.path.bytes.length ≤ maxPath) :
    disk.walkTo .resolve [] location.path.steps = .ended (.found location) := by
  by_cases hne : location = []
  · subst hne
    have hentries : disk.entries? [] = some entries := by rw [entries?, hdir]
    have hsteps : Path.steps (Location.path []) = [.slash] := by decide
    simp only [hsteps, walkTo, hentries]
  · rw [Location.steps_path (fun name h => (hnames name h).1) hne]
    refine walkTo_place (fun _ => rfl) hdir (fun target same => by cases same) fun above name h => ?_
    have hname : name.length ≤ maxName := by
      have haskable := (hnames name (h.subset (by simp))).2
      simp only [Bytes.isAskable, Bool.and_eq_true, decide_eq_true_eq] at haskable
      exact haskable.1
    have hpath := (Location.length_path_le_of_above h).trans hlength
    simp [isTooLong, hname, hpath]

/-- The path of a directory that is short enough for a request stands for that directory. -/
theorem resolvesTo_path (hdir : disk.node? location = some (.dir entries))
    (hnames : ∀ name ∈ location, Bytes.isName name = true ∧ Bytes.isAskable name = true)
    (hlength : location.path.bytes.length ≤ maxPath) :
    disk.ResolvesTo location.path location := by
  have habsolute := Location.isAbsolute_path location
  refine ⟨List.cons_ne_nil _ _, ?_, fun hrelative => ?_, ?_⟩
  · rw [Location.path, Path.ofPieces, List.mem_cons]
    rintro (hslash | hmem)
    · cases hslash
    · rcases Path.mem_joinPieces hmem with hslash | ⟨name, hname, hmem⟩
      · cases hslash
      · have haskable := (hnames name hname).2
        simp [Bytes.isAskable, hmem] at haskable
  · cases habsolute.symm.trans hrelative
  · apply leadsWithin_of_follow
    rw [startOf, habsolute, if_pos rfl, follow, walkTo_path hdir hnames hlength]

/-- A path that spells a directory by the real directories on the way down to it. -/
structure IsCanonical (disk : Disk) (root : Path) (location : Location) : Prop where
  isAbsolute : root.isAbsolute = true
  eq_path : root = location.path
  components_eq : root.components = .root :: location.map .name
  exists_dir : ∀ above, above <+: location → ∃ entries, disk.node? above = some (.dir entries)
  isDir : disk.isDir root = true
  leadsTo : disk.LeadsTo root location
  resolve_eq : disk.resolve root = .ok location

theorem exists_dir_above {above : Location} (hdir : disk.node? location = some (.dir entries))
    (h : above <+: location) : ∃ entries, disk.node? above = some (.dir entries) := by
  obtain ⟨rest, rfl⟩ := h
  rw [node?, Node.get?_append, Option.bind_eq_some_iff] at hdir
  obtain ⟨node, hnode, hrest⟩ := hdir
  cases rest with
  | nil =>
      obtain rfl : node = .dir entries := by simpa only [Node.get?, Option.some.injEq] using hrest
      exact ⟨entries, hnode⟩
  | cons name rest =>
      obtain ⟨others, -, rfl, -, -⟩ := Node.get?_cons_eq_some_iff.1 hrest
      exact ⟨others, hnode⟩

section Askable

variable (hwf : disk.top.isWellFormed = true) (hnames : disk.top.allNames Bytes.isAskable = true)

include hwf hnames

theorem resolve_path (hdir : disk.node? location = some (.dir entries))
    (hlength : location.path.bytes.length ≤ maxPath) :
    disk.resolve location.path = .ok location := by
  refine (resolvesTo_path hdir (fun name h => ?_) hlength).resolve_eq
  exact ⟨Node.isName_of_get? hwf hdir name h, Node.allNames_of_get? hnames hdir name h⟩

/-- The path of a real node is one of a directory if there is a directory and a request can ask for
    it. -/
theorem isDir_path_iff (hreal : disk.IsReal location) :
    disk.isDir location.path = true ↔
      (∃ entries, disk.node? location = some (.dir entries)) ∧
        location.path.bytes.length ≤ maxPath := by
  constructor
  · intro h
    obtain ⟨other, hfind, hentries⟩ := exists_of_isDir h
    obtain rfl := eq_of_find_path hwf hreal hfind
    exact ⟨hreal.exists_dir hentries, Nat.le_of_not_lt (way_of_find hfind).1⟩
  · rintro ⟨⟨entries, hdir⟩, hlength⟩
    have hfind := find_of_resolve (resolve_path hwf hnames hdir hlength) hlength
    simp only [isDir, hfind, entries?, hdir, Option.isSome_some]

theorem not_isDir_path_iff (hreal : disk.IsReal location) {node : Node}
    (hnode : disk.node? location = some node) :
    ¬ disk.isDir location.path = true ↔
      (∀ entries, node ≠ .dir entries) ∨ maxPath < location.path.bytes.length := by
  rw [isDir_path_iff hwf hnames hreal, not_and_or, Nat.not_le]
  simp only [hnode, Option.some.injEq, not_exists, ne_eq]

theorem isCanonical_path (hdir : disk.node? location = some (.dir entries))
    (hlength : location.path.bytes.length ≤ maxPath) : disk.IsCanonical location.path location := by
  have hresolve := resolve_path hwf hnames hdir hlength
  exact
    { isAbsolute := Location.isAbsolute_path location
      eq_path := rfl
      components_eq := Location.components_path (Node.isName_of_get? hwf hdir)
      exists_dir := fun above h => exists_dir_above hdir h
      isDir := (isDir_path_iff hwf hnames (isReal_of_dir hdir)).2 ⟨⟨entries, hdir⟩, hlength⟩
      leadsTo := leadsTo_of_resolve hresolve
      resolve_eq := hresolve }

end Askable

theorem IsCanonical.rootAt (h : disk.IsCanonical root location) : disk.rootAt root = .ok root := by
  have hdir := h.isDir
  rw [Disk.rootAt, h.resolve_eq]
  rw [h.eq_path] at hdir ⊢
  exact if_pos hdir

/-! ## The root of a run -/

theorem rootAt_of_resolvesTo (h : disk.ResolvesTo asked location) :
    disk.rootAt asked = if disk.isDir location.path then .ok location.path
      else .error (.notADirectory location.path) := by
  rw [rootAt, h.resolve_eq]

theorem rootAt_eq_unresolved_iff :
    (∃ cause, disk.rootAt asked = .error (.unresolved asked cause)) ↔
      ¬ ∃ location, disk.ResolvesTo asked location := by
  constructor
  · rintro ⟨cause, hroot⟩ ⟨location, h⟩
    rw [rootAt_of_resolvesTo h] at hroot
    split at hroot <;> cases hroot
  · intro hnowhere
    cases hresolve : disk.resolve asked with
    | ok location => exact absurd ⟨location, resolve_eq_ok_iff.1 hresolve⟩ hnowhere
    | error cause => exact ⟨cause, by rw [rootAt, hresolve]⟩

theorem error_cases_of_rootAt {error : RootError} (h : disk.rootAt asked = .error error) :
    (∃ root, error = .notADirectory root) ∨ ∃ cause, error = .unresolved asked cause := by
  unfold rootAt at h
  split at h
  next cause _ => exact .inr ⟨cause, (Except.error.inj h).symm⟩
  next location _ =>
    split at h
    · cases h
    · exact .inl ⟨location.path, (Except.error.inj h).symm⟩

section Root

variable (hwf : disk.top.isWellFormed = true) (hnames : disk.top.allNames Bytes.isAskable = true)
  (hcurrent : ∀ target, disk.node? disk.current ≠ some (.link target))

include hwf hnames hcurrent

theorem rootAt_eq_ok_iff :
    disk.rootAt asked = .ok root ↔
      ∃ location entries, disk.ResolvesTo asked location ∧
        disk.node? location = some (.dir entries) ∧ location.path.bytes.length ≤ maxPath ∧
          root = location.path := by
  constructor
  · intro hroot
    obtain ⟨location, hresolve, rfl, hdir⟩ := exists_of_rootAt hroot
    have h := resolve_eq_ok_iff.1 hresolve
    obtain ⟨⟨entries, hnode⟩, hlength⟩ :=
      (isDir_path_iff hwf hnames (h.isReal hcurrent)).1 hdir
    exact ⟨location, entries, h, hnode, hlength, rfl⟩
  · rintro ⟨location, entries, h, hnode, hlength, rfl⟩
    rw [rootAt_of_resolvesTo h,
      (isDir_path_iff hwf hnames (isReal_of_dir hnode)).2 ⟨⟨entries, hnode⟩, hlength⟩, if_pos rfl]

theorem rootAt_eq_notADirectory_iff :
    disk.rootAt asked = .error (.notADirectory root) ↔
      ∃ location node, disk.ResolvesTo asked location ∧ disk.node? location = some node ∧
        ((∀ entries, node ≠ .dir entries) ∨ maxPath < location.path.bytes.length) ∧
          root = location.path := by
  constructor
  · intro hroot
    cases hresolve : disk.resolve asked with
    | error cause =>
        rw [rootAt, hresolve] at hroot
        cases hroot
    | ok location =>
        have h := resolve_eq_ok_iff.1 hresolve
        obtain ⟨node, hnode, -⟩ := h.isReal hcurrent
        rw [rootAt_of_resolvesTo h] at hroot
        split at hroot
        · cases hroot
        next hdir =>
          obtain rfl := RootError.notADirectory.inj (Except.error.inj hroot)
          have hrefused := (not_isDir_path_iff hwf hnames (h.isReal hcurrent) hnode).1 hdir
          exact ⟨location, node, h, hnode, hrefused, rfl⟩
  · rintro ⟨location, node, h, hnode, hrefused, rfl⟩
    have hdir := (not_isDir_path_iff hwf hnames (h.isReal hcurrent) hnode).2 hrefused
    rw [rootAt_of_resolvesTo h, if_neg hdir]

end Root

/-- A disk on which links lead on to links, up and down, and round in a ring. -/
def windingSite : Disk where
  top := .dir [
    (Utf8.encode ['s'], .dir [
      (Utf8.encode ['t'], .dir [(Utf8.encode ['h'], .link (.ofText ['.', '.']))]),
      (Utf8.encode ['w'], .link (.ofText ['t', '/', '/', '.', '/'])),
      (Utf8.encode ['n'], .file []),
      (Utf8.encode ['r'], .link (.ofText ['.', '/', 'r']))]),
    (Utf8.encode ['a'], .link (.ofText ['/', 's', '/', 'w', '/', 'h', '/', 'w']))]
  current := [Utf8.encode ['s']]

/-- A file below directories, each of them alone in the next and all of one name. -/
def nested (name : Bytes) : Nat → Node
  | 0 => .file []
  | depth + 1 => .dir [(name, nested name depth)]

theorem get?_nested (name : Bytes) (depth rest : Nat) :
    (nested name (depth + rest)).get? (List.replicate depth name) = some (nested name rest) := by
  induction depth with
  | zero => rw [Nat.zero_add, List.replicate_zero, Node.get?]
  | succ depth ih =>
      rw [Nat.succ_add]
      simp only [nested, List.replicate_succ, Node.get?, List.lookup_cons, BEq.rfl,
        Option.bind_some, ih]

theorem isWellFormed_nested {name : Bytes} (hname : Bytes.isName name = true) (depth : Nat) :
    (nested name depth).isWellFormed = true := by
  induction depth with
  | zero => rfl
  | succ depth ih =>
      simp only [nested, Node.isWellFormed, Node.areWellFormed, hname, ih, List.lookup_nil,
        Option.isNone_none, Bool.and_self]

theorem allNames_nested {test : Bytes → Bool} {name : Bytes} (hname : test name = true)
    (depth : Nat) : (nested name depth).allNames test = true := by
  induction depth with
  | zero => rfl
  | succ depth ih => simp only [nested, Node.allNames, Node.allEntryNames, hname, ih, Bool.and_self]

theorem length_joinPieces_replicate (name : Bytes) (depth : Nat) :
    (Path.joinPieces (List.replicate (depth + 1) name)).length + 1 =
      (depth + 1) * (name.length + 1) := by
  induction depth with
  | zero => simp [Path.joinPieces]
  | succ depth ih =>
      rw [List.replicate_succ] at ih ⊢
      rw [List.replicate_succ, Path.joinPieces, List.length_append, List.length_cons, Nat.add_mul,
        ← ih]
      omega

theorem length_path_replicate (name : Bytes) (depth : Nat) :
    (Location.path (List.replicate (depth + 1) name)).bytes.length =
      (depth + 1) * (name.length + 1) :=
  length_joinPieces_replicate name depth

/-- A file below seventeen directories of one name, and a current directory at some depth. -/
def deepSite (name : Bytes) (depth : Nat) : Disk where
  top := nested name 17
  current := List.replicate depth name

/-- The path of the file from the directory at depth one. -/
def deepFile (name : Bytes) : Path := .ofPieces .bare (List.replicate 16 name)

theorem node?_deepSite (name : Bytes) (depth below rest : Nat) (h : 17 = below + rest) :
    (deepSite name depth).node? (List.replicate below name) = some (nested name rest) := by
  rw [node?, deepSite, h]
  exact get?_nested name below rest

/-- A name that is as long as names can be. -/
def longName : Bytes := List.replicate maxName 0x61

end Disk

end LicenseStamp

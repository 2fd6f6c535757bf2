import LicenseStamp.Proofs.Path.Components
import Mathlib.Data.List.Chain

/-! # Relative paths lead back

A path in normal form has no dots, and steps up only where there is nothing to take back. What a
root sees of a path, joined to the root again, has the normal form of the path, so that paths of
different normal forms are seen differently.
-/

namespace LicenseStamp.Path

variable {path root other : Path} {pieces rest steps : List Bytes}

/-! ## Normal form -/

/-- Takes one component into account. The components before it are given nearest first; a parent step
    takes back a name, and does nothing at the root directory. -/
def normalStep : List Component → Component → List Component
  | before, .here => before
  | .name _ :: before, .up => before
  | .root :: before, .up => .root :: before
  | before, component => component :: before

/-- Components without dots and without names that a parent step takes back. -/
def normalize (components : List Component) : List Component :=
  (components.foldl normalStep []).reverse

/-- The normal form of a path, by its components. -/
def normal (path : Path) : List Component := normalize path.components

/-- What stands before a component in normal form: no dots, and steps up only above steps up. -/
def IsNormalBefore (before : List Component) : Prop :=
  .here ∉ before ∧ before.IsChain fun nearer farther => nearer = .up → farther = .up

theorem IsNormalBefore.step {before : List Component} (h : IsNormalBefore before)
    (component : Component) : IsNormalBefore (normalStep before component) := by
  obtain ⟨hhere, hchain⟩ := h
  fun_cases normalStep before component with
  | case1 => exact ⟨hhere, hchain⟩
  | case2 name before =>
      exact ⟨mt (List.mem_cons_of_mem _) hhere, (List.isChain_cons.1 hchain).2⟩
  | case3 before => exact ⟨hhere, hchain⟩
  | case4 before component hdot hname hroot =>
      refine ⟨?_, List.isChain_cons.2 ⟨?_, hchain⟩⟩
      · rintro (_ | ⟨_, hmem⟩)
        · exact hdot rfl
        · exact hhere hmem
      · rintro farther hfarther rfl
        obtain ⟨rest, rfl⟩ := List.head?_eq_some_iff.1 hfarther
        cases farther with
        | root => exact (hroot _ rfl rfl).elim
        | here => exact absurd List.mem_cons_self hhere
        | up => rfl
        | name bytes => exact (hname _ _ rfl rfl).elim

/-- In normal form there is no dot, and a parent step comes first or after another one. -/
theorem normal_isChain (path : Path) :
    .here ∉ path.normal ∧ path.normal.IsChain fun first second => second = .up → first = .up := by
  have hbefore : ∀ (components before : List Component), IsNormalBefore before →
      IsNormalBefore (components.foldl normalStep before) := by
    intro components
    induction components with
    | nil => exact fun _ h => h
    | cons component rest ih => exact fun _ h => ih _ (h.step component)
  obtain ⟨hhere, hchain⟩ := hbefore path.components [] ⟨List.not_mem_nil, .nil⟩
  exact ⟨mt List.mem_reverse.1 hhere, List.isChain_reverse.2 hchain⟩

theorem normalStep_name (before : List Component) (name : Bytes) :
    normalStep before (.name name) = .name name :: before := by
  rcases before with _ | ⟨_ | _, _⟩ <;> rfl

/-- Steps up take back as many names before them. -/
theorem foldl_normalStep_names (before : List Component) (names : List Bytes) :
    (names.map Component.name ++ List.replicate names.length Component.up).foldl normalStep before =
      before := by
  induction names generalizing before with
  | nil => rfl
  | cons name names ih =>
      have hback := ih (.name name :: before)
      rw [List.length_cons, List.replicate_succ', List.map_cons, List.cons_append, List.foldl_cons,
        normalStep_name, ← List.append_assoc, List.foldl_append, hback]
      rfl

theorem normalize_up_down (front back : List Component) (names : List Bytes) :
    normalize (front ++ names.map .name ++ (List.replicate names.length .up ++ back)) =
      normalize (front ++ back) := by
  rw [normalize, List.append_assoc, ← List.append_assoc (names.map _), List.foldl_append,
    List.foldl_append, foldl_normalStep_names, ← List.foldl_append, normalize]

/-! ## The way from a root -/

theorem dropCommon_append (front first second : List Component) :
    dropCommon (front ++ first) (front ++ second) = dropCommon first second := by
  induction front with
  | nil => rfl
  | cons component front ih => rw [List.cons_append, List.cons_append, dropCommon, if_pos rfl, ih]

theorem exists_dropCommon_eq (first second : List Bytes) :
    ∃ common rest steps, first = common ++ rest ∧ second = common ++ steps ∧
      dropCommon (first.map ofPiece) (second.map ofPiece) = (rest.map ofPiece, steps.map ofPiece) := by
  induction first generalizing second with
  | nil => exact ⟨[], [], second, rfl, rfl, rfl⟩
  | cons piece first ih =>
      cases second with
      | nil => exact ⟨[], piece :: first, [], rfl, rfl, rfl⟩
      | cons step second =>
          by_cases hsame : ofPiece piece = ofPiece step
          · obtain ⟨common, rest, steps, rfl, rfl, hdrop⟩ := ih second
            obtain rfl := ofPiece_injective hsame
            refine ⟨piece :: common, rest, steps, rfl, rfl, ?_⟩
            simp only [List.map_cons, dropCommon, if_true, hdrop]
          · refine ⟨[], piece :: first, step :: second, rfl, rfl, ?_⟩
            simp only [List.map_cons, dropCommon, if_neg hsame]

theorem map_ofPiece_ups (names : List Bytes) :
    (names.map fun _ => [dot, dot]).map ofPiece = List.replicate names.length .up := by
  rw [List.map_map, ← List.map_const']
  rfl

/-- From a base of names the way to a path leads up over all of them. -/
theorem way_map_name (rest : List Bytes) (names : List Bytes) :
    way (rest.map ofPiece) (names.map .name) =
      some ((names.map (fun _ => [dot, dot]) ++ rest).map ofPiece) := by
  rw [List.map_append, map_ofPiece_ups]
  cases names with
  | nil => cases rest <;> rfl
  | cons name names =>
      cases rest with
      | nil => simp [way, Function.comp_def, List.replicate_succ]
      | cons next rest => simp [way, Function.comp_def, List.replicate_succ]

theorem bytes_ofPiece (piece : Bytes) : Component.bytes (ofPiece piece) = piece := by
  unfold ofPiece
  split
  next hdots => exact hdots.symm
  · rfl

theorem ofComponents_concat (components : List Component) (last : Component) :
    ofComponents (components ++ [last]) = (ofComponents components).join ⟨Component.bytes last⟩ := by
  rw [ofComponents, List.foldl_append]
  rfl

/-- Plain pieces do not end in a slash. -/
theorem getLast?_joinPieces_ne (hplain : ∀ piece ∈ pieces, IsPlain piece) :
    (joinPieces pieces).getLast? ≠ some slash := by
  have hlast : ∀ piece : Bytes, IsPlain piece → piece.getLast? ≠ some slash :=
    fun piece h hslash => h.1 (List.mem_of_getLast? hslash)
  fun_induction joinPieces pieces with
  | case1 => exact (Option.some_ne_none slash).symm
  | case2 piece => exact hlast piece (hplain piece List.mem_cons_self)
  | case3 piece next rest ih =>
      have hrest := List.forall_mem_of_forall_mem_cons hplain
      have hne : joinPieces (next :: rest) ≠ [] := bytes_ofPieces_ne_nil hrest (List.cons_ne_nil _ _)
      obtain ⟨byte, bytes, hbytes⟩ := List.exists_cons_of_ne_nil hne
      have hih := ih hrest
      rw [hbytes] at hih ⊢
      rwa [List.getLast?_append_of_ne_nil _ (List.cons_ne_nil _ _), List.getLast?_cons_cons]

/-- Plain pieces, joined one by one, are the path that they spell. -/
theorem ofComponents_map_ofPiece (hplain : ∀ piece ∈ pieces, IsPlain piece) :
    ofComponents (pieces.map ofPiece) = ofPieces .bare pieces := by
  induction pieces using List.reverseRecOn with
  | nil => rfl
  | append_singleton front last ih =>
      obtain ⟨hfront, hlast⟩ := List.forall_mem_append.1 hplain
      have hrelative := isAbsolute_of_slash_not_mem (hlast last (List.mem_singleton_self _)).1
      rw [List.map_append, List.map_singleton, ofComponents_concat, ih hfront, bytes_ofPiece]
      cases front with
      | nil => simp [join, ofPieces, joinPieces]
      | cons first more =>
          have hbase := bytes_ofPieces_ne_nil hfront (List.cons_ne_nil _ _)
          have hopen : (ofPieces .bare (first :: more)).bytes.getLast? ≠ some slash :=
            getLast?_joinPieces_ne hfront
          rw [Path.mk.injEq, bytes_join hbase hrelative, if_neg hopen]
          exact (joinPieces_concat (List.cons_ne_nil _ _) last).symm

/-! ## Paths that a root can be compared with -/

/-- Both paths are absolute, or both are relative and neither starts with a dot. -/
def IsComparable (path root : Path) : Prop :=
  (path.isAbsolute = true ∧ root.isAbsolute = true) ∨
    (path.isAbsolute = false ∧ root.isAbsolute = false ∧
      path.components.head? ≠ some .here ∧ root.components.head? ≠ some .here)

instance (path root : Path) : Decidable (IsComparable path root) :=
  inferInstanceAs (Decidable (_ ∨ _))

theorem isAbsolute_of_root (h : path.split.1 = .root) : path.isAbsolute = true := by
  unfold split at h
  split at h
  next next rest hparts =>
    have hbytes : [slash].intercalate (path.bytes.splitOn slash) = path.bytes :=
      List.intercalate_splitOn slash
    rw [isAbsolute, ← hbytes, hparts]
    rfl
  · split at h <;> cases h
  · cases h

theorem anchor_of_relative (hrelative : path.isAbsolute = false)
    (hdot : path.components.head? ≠ some .here) : path.split.1 = .bare := by
  cases hanchor : path.split.1 with
  | root => rw [isAbsolute_of_root hanchor] at hrelative; cases hrelative
  | here => rw [components_eq, hanchor] at hdot; exact absurd rfl hdot
  | bare => rfl

theorem IsComparable.anchor_eq (h : IsComparable path root) : path.split.1 = root.split.1 := by
  rcases h with ⟨hpath, hroot⟩ | ⟨hpath, hroot, hdot, hdot'⟩
  · rw [anchor_of_isAbsolute hpath, anchor_of_isAbsolute hroot]
  · rw [anchor_of_relative hpath hdot, anchor_of_relative hroot hdot']

theorem IsComparable.isAbsolute_eq (h : IsComparable path root) :
    path.isAbsolute = root.isAbsolute := by
  rcases h with ⟨hpath, hroot⟩ | ⟨hpath, hroot, -⟩ <;> rw [hpath, hroot]

theorem map_ofPiece_of_up_not_mem (h : .up ∉ pieces.map ofPiece) :
    pieces.map ofPiece = pieces.map .name := by
  apply List.map_congr_left
  intro piece hpiece
  apply if_neg
  rintro rfl
  exact h (List.mem_map_of_mem hpiece)

/-- The way from a root without steps up leads up from all that the path does not share with it. -/
theorem exists_wayFrom?_eq (h : IsComparable path root) (hup : .up ∉ root.components) :
    ∃ (front rest : List Component) (names : List Bytes) (found : Path),
      path.components = front ++ rest ∧ root.components = front ++ names.map .name ∧
      path.wayFrom? root = some found ∧ found.split.1 = .bare ∧
      found.components = List.replicate names.length .up ++ rest := by
  obtain ⟨common, rest, names, hpath, hroot, hdrop⟩ :=
    exists_dropCommon_eq (solid path.split.2) (solid root.split.2)
  -- a parent step among them is what the way cannot take back
  have hnames : names.map ofPiece = names.map .name := by
    apply map_ofPiece_of_up_not_mem
    rw [components_eq, hroot, List.map_append] at hup
    exact fun hmem => hup (List.mem_append_right _ (List.mem_append_right _ hmem))
  have hplain : ∀ piece ∈ names.map (fun _ => [dot, dot]) ++ rest, IsPlain piece := by
    apply isPlain_of_mem_ups
    intro piece hmem
    apply isPlain_of_mem_solid_split
    rw [hpath]
    exact List.mem_append_right _ hmem
  refine ⟨root.split.1.components ++ common.map ofPiece, rest.map ofPiece, names, upDown names rest,
    ?_, ?_, ?_, ?_, ?_⟩
  · rw [components_eq, h.anchor_eq, hpath, List.map_append, List.append_assoc]
  · rw [components_eq, hroot, List.map_append, hnames, List.append_assoc]
  · rw [wayFrom?, if_pos h.isAbsolute_eq, components_eq, components_eq root, h.anchor_eq,
      dropCommon_append, hdrop]
    simp only [hnames, way_map_name, Option.map_some, ofComponents_map_ofPiece hplain]
    rfl
  · by_cases hnil : names.map (fun _ => [dot, dot]) ++ rest = []
    · rw [upDown, hnil]
      rfl
    · rw [upDown, split_ofPieces hplain hnil]
  · rw [upDown, components_ofPieces_of_isPlain hplain, List.map_append, map_ofPiece_ups]

/-- What is seen of a path leads up from all that the path does not share with the root, and then
    along the rest of the path. -/
theorem exists_relativeTo_eq (h : IsComparable path root) (hup : .up ∉ root.components) :
    ∃ (front rest : List Component) (names : List Bytes),
      path.components = front ++ rest ∧ root.components = front ++ names.map .name ∧
      (path.relativeTo root).split.1 = .bare ∧
      (path.relativeTo root).components = List.replicate names.length .up ++ rest := by
  rw [relativeTo]
  cases hbelow : path.below? root with
  | some left =>
      -- below the root all of it is shared, and nothing leads up
      obtain ⟨hbare, hcomponents⟩ := below?_eq_some h.anchor_eq hbelow
      exact ⟨root.components, left.components, [], hcomponents, (List.append_nil _).symm, hbare, rfl⟩
  | none =>
      obtain ⟨front, rest, names, found, hpath, hroot, hway, hbare, hfound⟩ :=
        exists_wayFrom?_eq h hup
      rw [hway]
      exact ⟨front, rest, names, hpath, hroot, hbare, hfound⟩

theorem normal_join_relativeTo (h : IsComparable path root) (hup : .up ∉ root.components) :
    (root.join (path.relativeTo root)).normal = path.normal := by
  obtain ⟨front, rest, names, hpath, hroot, hbare, hseen⟩ := exists_relativeTo_eq h hup
  rw [normal, components_join hbare, hroot, hseen, normalize_up_down, normal, hpath]

/-- What is seen of a path below the root are the components that come after those of the root. -/
theorem components_relativeTo (h : IsComparable path root)
    (hstart : root.components <+: path.components) :
    path.components = root.components ++ (path.relativeTo root).components := by
  obtain ⟨left, hbelow⟩ := exists_below?_eq h.anchor_eq hstart
  rw [relativeTo, hbelow]
  exact (below?_eq_some h.anchor_eq hbelow).2

/-- What a root without steps up sees of a path is relative and leads back: joined to the root it has
    the normal form of the path. Below the root it has the steps up of the path alone and leads back to
    the very components of the path. Paths of different normal forms are therefore seen
    differently. -/
theorem join_relativeTo (h : IsComparable path root) (hup : .up ∉ root.components) :
    (path.relativeTo root).isAbsolute = false ∧
      (root.join (path.relativeTo root)).normal = path.normal ∧
      (root.components <+: path.components →
        (path.relativeTo root).components.count .up = path.components.count .up ∧
          path.components = root.components ++ (path.relativeTo root).components ∧
          (root.join (path.relativeTo root)).components = path.components) ∧
      ∀ other : Path, IsComparable other root → path.normal ≠ other.normal →
        (path.relativeTo root).components ≠ (other.relativeTo root).components := by
  obtain ⟨-, -, -, -, -, hbare, -⟩ := exists_relativeTo_eq h hup
  refine ⟨isAbsolute_of_bare hbare, normal_join_relativeTo h hup, ?_, ?_⟩
  · intro hstart
    have hcomponents := components_relativeTo h hstart
    refine ⟨?_, hcomponents, ?_⟩
    · rw [hcomponents, List.count_append, List.count_eq_zero_of_not_mem hup, Nat.zero_add]
    · rw [components_join hbare, ← hcomponents]
  · intro other hother hne hsame
    apply hne
    obtain ⟨-, -, -, -, -, hbare', -⟩ := exists_relativeTo_eq hother hup
    rw [← normal_join_relativeTo h hup, ← normal_join_relativeTo hother hup, normal, normal,
      components_join hbare, components_join hbare', hsame]

/-- One directory sees a path that steps up beside it and a path below it that is spelled with voids. -/
theorem join_relativeTo_sibling :
    let root : Path := .ofText ['/', 'a', '/', 'b']
    let beside : Path := .ofText ['/', 'a', '/', '.', '.', '/', 'c']
    let below : Path := .ofText ['/', 'a', '/', '/', 'b', '/', '.', '/', '.', '.', '/', 'd', '/']
    IsComparable beside root ∧ IsComparable below root ∧ .up ∉ root.components ∧
      beside.relativeTo root = .ofText ['.', '.', '/', '.', '.', '/', 'c'] ∧
      (root.join (beside.relativeTo root)).normal = beside.normal ∧
      (root.join (below.relativeTo root)).components = below.components ∧
      (below.relativeTo root).components ≠ (beside.relativeTo root).components := by
  intro root beside below
  have hbeside : IsComparable beside root := by decide +kernel
  have hbelow : IsComparable below root := by decide +kernel
  have hup : .up ∉ root.components := by decide +kernel
  have hstart : root.components <+: below.components := by decide +kernel
  have hne : below.normal ≠ beside.normal := by decide +kernel
  obtain ⟨-, hnormal, -⟩ := join_relativeTo hbeside hup
  obtain ⟨-, -, hsame, hdifferent⟩ := join_relativeTo hbelow hup
  exact ⟨hbeside, hbelow, hup, by decide +kernel, hnormal, (hsame hstart).2.2,
    hdifferent beside hbeside hne⟩

end LicenseStamp.Path

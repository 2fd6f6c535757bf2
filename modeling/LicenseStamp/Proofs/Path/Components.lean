import LicenseStamp.Proofs.Path.Joined
import Mathlib.Data.List.DropRight

/-! # Components of joined paths and of what is left of a path

Joining a relative path appends its components, whatever voids the two are written with. What is
left of a path below a base has the components that come after those of the base, and something
is left whenever the components of the base start those of the path.
-/

namespace LicenseStamp.Path

variable {path base : Path} {pieces wanted rest : List Bytes} {piece : Bytes}

/-- The pieces that stand for components. -/
def solid (pieces : List Bytes) : List Bytes := pieces.filter fun piece => !isVoid piece

theorem components_eq (path : Path) :
    path.components = path.split.1.components ++ (solid path.split.2).map ofPiece := rfl

theorem solid_append (first second : List Bytes) :
    solid (first ++ second) = solid first ++ solid second :=
  List.filter_append first second

theorem isVoid_of_mem_solid (h : piece ∈ solid pieces) : isVoid piece = false := by
  have hkept := (List.mem_filter.1 h).2
  rwa [Bool.not_eq_true'] at hkept

/-- The components of a path stand for plain pieces. -/
theorem isPlain_of_mem_solid_split (h : piece ∈ solid path.split.2) : IsPlain piece :=
  ⟨slash_not_mem_of_mem_split (List.mem_of_mem_filter h), isVoid_of_mem_solid h⟩

theorem ofPiece_injective : Function.Injective ofPiece := by
  intro first second h
  unfold ofPiece at h
  split at h
  next hfirst =>
    split at h
    next hsecond => rw [hfirst, hsecond]
    · cases h
  · split at h
    · cases h
    · exact Component.name.inj h

theorem solid_dropWhile (pieces : List Bytes) : solid (pieces.dropWhile isVoid) = solid pieces := by
  induction pieces with
  | nil => rfl
  | cons piece rest ih =>
      rw [List.dropWhile_cons]
      split
      next hvoid =>
        rw [ih, solid, solid, List.filter_cons_of_neg (by rw [hvoid]; exact Bool.false_ne_true)]
      · rfl

theorem solid_dropVoidEnd (pieces : List Bytes) : solid (dropVoidEnd pieces) = solid pieces := by
  have hreverse := solid_dropWhile pieces.reverse
  rw [solid, solid, List.filter_reverse] at hreverse
  rw [dropVoidEnd, solid, List.filter_reverse, hreverse, List.reverse_reverse, solid]

/-! ## What is left of a path -/

/-- The stretch of some pieces without void ones at its ends, as a path. -/
def stretch (pieces : List Bytes) : Path := ofPieces .bare (dropVoidEnd (pieces.dropWhile isVoid))

/-- A stretch of pieces starts without an anchor and stands for their components. -/
theorem split_stretch (hslash : ∀ piece ∈ pieces, slash ∉ piece) :
    (stretch pieces).split.1 = .bare ∧ solid (stretch pieces).split.2 = solid pieces := by
  have hsolid : solid (dropVoidEnd (pieces.dropWhile isVoid)) = solid pieces := by
    rw [solid_dropVoidEnd, solid_dropWhile]
  have hstart : dropVoidEnd (pieces.dropWhile isVoid) <+: pieces.dropWhile isVoid :=
    List.rdropWhile_prefix isVoid _
  unfold stretch
  cases hpieces : dropVoidEnd (pieces.dropWhile isVoid) with
  | nil =>
      rw [hpieces] at hsolid
      exact ⟨rfl, hsolid⟩
  | cons first more =>
      rw [hpieces] at hsolid hstart
      have hfirst := List.head?_dropWhile_not isVoid pieces
      obtain ⟨back, hback⟩ := hstart
      rw [← hback] at hfirst
      have hmem : ∀ piece ∈ first :: more, slash ∉ piece := by
        intro piece hpiece
        apply hslash
        apply (List.dropWhile_suffix isVoid).subset
        rw [← hback]
        exact List.mem_append_left _ hpiece
      rw [split_ofPieces_cons hmem hfirst]
      exact ⟨rfl, hsolid⟩

/-- Pieces are dropped as long as they stand for the wanted components. -/
theorem dropPieces_eq_some (hwanted : ∀ piece ∈ wanted, isVoid piece = false)
    (h : dropPieces pieces wanted = some rest) :
    rest <:+ pieces ∧ solid pieces = wanted ++ solid rest := by
  fun_induction dropPieces pieces wanted with
  | case1 pieces =>
      obtain rfl := Option.some.inj h
      exact ⟨List.suffix_rfl, rfl⟩
  | case2 => cases h
  | case3 piece later wanted more hvoid ih =>
      obtain ⟨hsuffix, hsolid⟩ := ih hwanted h
      refine ⟨hsuffix.trans (List.suffix_cons _ _), ?_⟩
      rw [← hsolid, solid, List.filter_cons_of_neg (by rw [hvoid]; exact Bool.false_ne_true)]
      rfl
  | case4 later wanted more hvoid ih =>
      obtain ⟨hsuffix, hsolid⟩ := ih (fun piece h => hwanted piece (List.mem_cons_of_mem _ h)) h
      refine ⟨hsuffix.trans (List.suffix_cons _ _), ?_⟩
      rw [List.cons_append, ← hsolid, solid, List.filter_cons_of_pos (by simpa using hvoid)]
      rfl
  | case5 => cases h

theorem exists_dropPieces_eq (h : wanted <+: solid pieces) :
    ∃ rest, dropPieces pieces wanted = some rest := by
  fun_induction dropPieces pieces wanted with
  | case1 pieces => exact ⟨pieces, rfl⟩
  | case2 => cases List.prefix_nil.1 h
  | case3 piece later wanted more hvoid ih =>
      apply ih
      rwa [solid, List.filter_cons_of_neg (by rw [hvoid]; exact Bool.false_ne_true)] at h
  | case4 later wanted more hvoid ih =>
      apply ih
      rw [solid, List.filter_cons_of_pos (by simpa using hvoid)] at h
      exact ((List.prefix_cons_inj _).1 h)
  | case5 piece later wanted more hvoid hne =>
      rw [solid, List.filter_cons_of_pos (by simpa using hvoid)] at h
      exact absurd (List.cons_prefix_cons.1 h).1.symm hne

/-- The pieces of a path without an anchor are all that its slashes divide, and unless the path is
    empty the first one is not void. -/
theorem split_of_bare (h : path.split.1 = .bare) :
    path.split.2 = path.bytes.splitOn slash ∧
      (path.split.2 = [[]] ∨ ∃ first more, path.split.2 = first :: more ∧ isVoid first = false) := by
  unfold split at h ⊢
  split at h
  · cases h
  next first rest hroot hparts =>
    split at h
    · cases h
    next hdot =>
      rw [hparts]
      simp only [if_neg hdot]
      refine ⟨trivial, ?_⟩
      cases first with
      | nil =>
          cases rest with
          | nil => exact .inl rfl
          | cons next more => exact (hroot next more rfl rfl).elim
      | cons byte bytes => exact .inr ⟨_, _, rfl, by simpa [isVoid] using hdot⟩
  next hparts => exact absurd hparts (List.splitOn_ne_nil slash path.bytes)

theorem bytes_eq_nil_of_components (h : base.components.isEmpty = true) : base.bytes = [] := by
  by_contra hne
  rw [components_isEmpty_eq_false hne] at h
  cases h

/-- What is left of a path below a base with the same anchor is a stretch of its pieces. -/
theorem below?_eq (hanchor : path.split.1 = base.split.1) :
    path.below? base = (dropPieces path.split.2 (solid base.split.2)).map stretch := by
  by_cases hempty : base.components.isEmpty = true
  · obtain ⟨bytes⟩ := base
    obtain rfl : bytes = [] := bytes_eq_nil_of_components hempty
    have hbare : path.split.1 = .bare := hanchor
    have hstretch : stretch path.split.2 = ofPieces .bare (dropVoidEnd path.split.2) := by
      rcases (split_of_bare hbare).2 with hnil | ⟨first, more, hpieces, hvoid⟩
      · rw [hnil]
        rfl
      · rw [stretch, hpieces, List.dropWhile_cons_of_neg (by simp [hvoid])]
    have hdrop : dropPieces path.split.2 [] = some path.split.2 := by cases path.split.2 <;> rfl
    have hsolid : solid (Path.mk []).split.2 = [] := rfl
    rw [hsolid, hdrop, Option.map_some, hstretch]
    simp only [below?, hempty, if_true, hbare]
  · simp only [below?, hempty, hanchor, if_true, Bool.false_eq_true, if_false]
    rfl

/-- What is left below a base has no anchor and the components that follow those of the base. -/
theorem below?_eq_some {left : Path} (hanchor : path.split.1 = base.split.1)
    (h : path.below? base = some left) :
    left.split.1 = .bare ∧ path.components = base.components ++ left.components := by
  rw [below?_eq hanchor] at h
  obtain ⟨rest, hdrop, rfl⟩ := Option.map_eq_some_iff.1 h
  obtain ⟨hsuffix, hsolid⟩ := dropPieces_eq_some (fun _ => isVoid_of_mem_solid) hdrop
  have hslash : ∀ piece ∈ rest, slash ∉ piece := fun piece hpiece =>
    slash_not_mem_of_mem_split (hsuffix.subset hpiece)
  obtain ⟨hbare, hstretch⟩ := split_stretch hslash
  refine ⟨hbare, ?_⟩
  rw [components_eq, components_eq base, components_eq (stretch rest), hanchor, hbare, hstretch, hsolid,
    List.map_append, List.append_assoc]
  rfl

/-- Something is left of a path that starts with the components of the base. -/
theorem exists_below?_eq (hanchor : path.split.1 = base.split.1)
    (h : base.components <+: path.components) : ∃ left, path.below? base = some left := by
  rw [components_eq, components_eq path, hanchor, List.prefix_append_right_inj,
    List.prefix_map_iff_of_injective ofPiece_injective] at h
  obtain ⟨rest, hrest⟩ := exists_dropPieces_eq h
  exact ⟨stretch rest, by rw [below?_eq hanchor, hrest, Option.map_some]⟩

/-! ## Joining -/

theorem isAbsolute_of_bare (h : path.split.1 = .bare) : path.isAbsolute = false := by
  rw [← Bool.not_eq_true]
  intro habsolute
  rw [anchor_of_isAbsolute habsolute] at h
  cases h

/-- The components of a path without an anchor are appended to those of the path it is joined to. -/
theorem components_join (h : path.split.1 = .bare) :
    (base.join path).components = base.components ++ path.components := by
  obtain ⟨hpieces, -⟩ := split_of_bare h
  have hcomponents : path.components = (solid (path.bytes.splitOn slash)).map ofPiece := by
    rw [components_eq, h, hpieces]
    rfl
  by_cases hbase : base.bytes = []
  · obtain ⟨bytes⟩ := base
    obtain rfl : bytes = [] := hbase
    have hjoin : (Path.mk []).join path = path := by simp [join]
    rw [hjoin]
    rfl
  · have hjoin : base.join path = ⟨base.bytes ++
        if base.bytes.getLast? = some slash then path.bytes else slash :: path.bytes⟩ :=
      congrArg Path.mk (bytes_join hbase (isAbsolute_of_bare h))
    by_cases hlast : base.bytes.getLast? = some slash
    · obtain ⟨front, hfront⟩ := List.getLast?_eq_some_iff.1 hlast
      -- the last slash of the base is the one that divides the two
      have hbytes : base.bytes ++ path.bytes = front ++ slash :: path.bytes := by simp [hfront]
      have hsplit : base.split = ((stem front).1, (stem front).2 ++ [[]]) := by
        have hslash := split_slash front (List.not_mem_nil (a := slash))
        rwa [← hfront] at hslash
      have hvoid : solid [[]] = [] := rfl
      rw [if_pos hlast, hbytes] at hjoin
      rw [hcomponents, components_eq, components_eq base, hjoin, split_append_slash, hsplit,
        solid_append, solid_append, hvoid, List.append_nil, List.map_append, List.append_assoc]
    · rw [if_neg hlast] at hjoin
      rw [hcomponents, components_eq, components_eq base, hjoin, split_append_slash,
        split_eq_stem hbase, solid_append, List.map_append, List.append_assoc]

/-! ## Cutting -/

theorem splitOn_joinPieces (hslash : ∀ piece ∈ pieces, slash ∉ piece) :
    solid ((joinPieces pieces).splitOn slash) = solid pieces := by
  by_cases hne : pieces = []
  · rw [hne]
    rfl
  · rw [joinPieces_eq_intercalate, List.splitOn_intercalate slash hslash hne]

/-- The first pieces of a path, behind its anchor, spell the first of its components. -/
theorem components_ofPieces_of_front (h : front <+: path.split.2) :
    (ofPieces path.split.1 front).components =
      path.split.1.components ++ (solid front).map ofPiece := by
  have hslash : ∀ piece ∈ front, slash ∉ piece := fun piece hpiece =>
    slash_not_mem_of_mem_split (h.subset hpiece)
  cases hanchor : path.split.1 with
  | root =>
      have hsplit : (ofPieces .root front).split = (.root, (joinPieces front).splitOn slash) :=
        split_append_slash [] (joinPieces front)
      rw [components_eq, hsplit, splitOn_joinPieces hslash]
  | here =>
      cases front with
      | nil => rfl
      | cons first more =>
          have hsplit : (ofPieces .here (first :: more)).split =
              (.here, (joinPieces (first :: more)).splitOn slash) :=
            split_append_slash [dot] (joinPieces (first :: more))
          rw [components_eq, hsplit, splitOn_joinPieces hslash]
  | bare =>
      cases front with
      | nil => rfl
      | cons first more =>
          rcases (split_of_bare hanchor).2 with hnil | ⟨piece, later, hpieces, hvoid⟩
          · rw [hnil] at h
            obtain ⟨rfl, hmore⟩ := List.cons_prefix_cons.1 h
            rw [List.prefix_nil.1 hmore]
            rfl
          · rw [hpieces] at h
            obtain ⟨rfl, -⟩ := List.cons_prefix_cons.1 h
            rw [components_eq, split_ofPieces_cons hslash hvoid]

/-- The parent of a path lacks its last component. -/
theorem components_parent? (path : Path) :
    (path.parent?.getD ⟨[]⟩).components = path.components.dropLast := by
  have hpieces : solid path.split.2 = (solid (path.split.2.reverse.dropWhile isVoid)).reverse := by
    rw [solid_dropWhile, solid, solid, List.filter_reverse, List.reverse_reverse]
  have hsuffix := List.dropWhile_suffix isVoid (l := path.split.2.reverse)
  have hfirst := List.head?_dropWhile_not isVoid path.split.2.reverse
  rw [components_eq path, hpieces]
  unfold parent?
  cases hrest : path.split.2.reverse.dropWhile isVoid with
  | nil => cases hanchor : path.split.1 <;> simp only [hrest, hanchor] <;> rfl
  | cons last before =>
      rw [hrest] at hsuffix hfirst
      have hfront : (before.dropWhile isVoid).reverse <+: path.split.2 := by
        rw [← List.reverse_suffix, List.reverse_reverse]
        exact (List.dropWhile_suffix _).trans ((List.suffix_cons last before).trans hsuffix)
      have hsolid : solid (before.dropWhile isVoid).reverse = (solid before).reverse := by
        rw [solid, List.filter_reverse, ← solid, solid_dropWhile]
      have hlast : solid (last :: before) = last :: solid before :=
        List.filter_cons_of_pos (by simpa using hfirst)
      simp only [hrest, Option.getD_some]
      rw [components_ofPieces_of_front hfront, hsolid, hlast, List.reverse_cons, List.map_append,
        ← List.append_assoc, List.map_singleton, List.dropLast_concat]

/-- The first component of a path tells its anchor. -/
theorem anchor_eq (path : Path) :
    path.split.1 = match path.components.head? with
      | some .root => .root
      | some .here => .here
      | _ => .bare := by
  rw [components_eq]
  cases hanchor : path.split.1 with
  | root | here => rfl
  | bare =>
      cases hsolid : solid path.split.2 with
      | nil => rfl
      | cons piece rest =>
          by_cases hup : piece = [dot, dot] <;>
            simp only [Anchor.components, List.nil_append, List.map_cons, List.head?_cons, ofPiece, hup,
              if_true, if_false]

/-- What is left of a path below a base are the components behind those of the base. -/
theorem map_components_below? (path base : Path) :
    (path.below? base).map components =
      if base.components <+: path.components then
        some (path.components.drop base.components.length)
      else none := by
  by_cases hanchor : path.split.1 = base.split.1
  · split
    next hstart =>
      obtain ⟨left, hleft⟩ := exists_below?_eq hanchor hstart
      rw [hleft, Option.map_some, (below?_eq_some hanchor hleft).2, List.drop_left]
    next hstart =>
      rw [Option.map_eq_none_iff, Option.eq_none_iff_forall_ne_some]
      intro left hleft
      rw [(below?_eq_some hanchor hleft).2] at hstart
      exact hstart (List.prefix_append _ _)
  · by_cases hempty : base.components = []
    · have hall : path.below? base = some (ofPieces path.split.1 (dropVoidEnd path.split.2)) := by
        simp only [below?, hempty, List.isEmpty_nil, if_true]
      have hfront : dropVoidEnd path.split.2 <+: path.split.2 := List.rdropWhile_prefix isVoid _
      rw [hall, Option.map_some, components_ofPieces_of_front hfront, solid_dropVoidEnd, hempty,
        if_pos List.nil_prefix, components_eq path]
      rfl
    · have hbelow : path.below? base = none := by
        have hnot : base.components.isEmpty = false := by simpa using hempty
        simp only [below?, hnot, hanchor, Bool.false_eq_true, if_false]
      rw [hbelow, Option.map_none, if_neg]
      intro hstart
      obtain ⟨rest, hrest⟩ := hstart
      apply hanchor
      rw [anchor_eq, anchor_eq base, ← hrest, List.head?_append_of_ne_nil _ hempty]

end LicenseStamp.Path

import LicenseStamp.Path.Order
import Mathlib.Data.List.Sort

/-! # The order of paths is a total preorder

Bytes, components and component lists are all compared lexicographically, so each of these
orders is linear. Paths are ordered by their components: two paths are equal in this order if
and only if they have the same components. Sorting gives paths with different components one
order, whatever order they came in, and leaves paths with the same components in the order
they came in.
-/

namespace LicenseStamp

theorem Bytes.compare_eq_compare : Bytes.compare = (Ord.compare : List UInt8 → List UInt8 → _) := by
  rw [List.compare_eq_compareLex]
  funext first second
  fun_induction Bytes.compare first second with
  | case1 | case2 | case3 => rfl
  | case4 a as b bs ih => rw [List.compareLex_cons_cons, ih]

/-- The order of components: the root, then the leading dot, then the parent, then names. -/
inductive Component.Precedes : Component → Component → Prop where
  | root_here : Precedes .root .here
  | root_up : Precedes .root .up
  | root_name (name : Bytes) : Precedes .root (.name name)
  | here_up : Precedes .here .up
  | here_name (name : Bytes) : Precedes .here (.name name)
  | up_name (name : Bytes) : Precedes .up (.name name)
  /-- Names come in the lexicographic order of their bytes. -/
  | name {first second : Bytes} (h : first < second) : Precedes (.name first) (.name second)

/-- The order of paths, component by component. What starts a path comes before it. -/
def Path.Precedes (first second : Path) : Prop :=
  List.Lex Component.Precedes first.components second.components

theorem Bytes.compare_eq_lt_iff {first second : Bytes} :
    Bytes.compare first second = .lt ↔ first < second := by
  fun_induction Bytes.compare first second with
  | case1 => simp
  | case2 => simp
  | case3 => simp
  | case4 a as b bs ih =>
      rw [Ordering.then_eq_lt, Std.compare_eq_lt, Std.LawfulEqCmp.compare_eq_iff_eq, ih,
        List.cons_lt_cons_iff]

theorem Component.compare_eq_lt_iff {first second : Component} :
    first.compare second = .lt ↔ first.Precedes second := by
  constructor
  · intro h
    cases first with
    | name first =>
        cases second with
        | name second => exact .name (Bytes.compare_eq_lt_iff.1 h)
        | root | here | up => cases h
    | root =>
        cases second with
        | root => cases h
        | here => exact .root_here
        | up => exact .root_up
        | name => exact .root_name _
    | here =>
        cases second with
        | root | here => cases h
        | up => exact .here_up
        | name => exact .here_name _
    | up =>
        cases second with
        | root | here | up => cases h
        | name => exact .up_name _
  · rintro (_ | _ | _ | _ | _ | _ | h)
    case name => exact Bytes.compare_eq_lt_iff.2 h
    all_goals rfl

namespace Path

/-- Components are ordered by their kind, and those of one kind by their bytes. -/
theorem component_compare_eq_compareLex :
    Component.compare = compareLex (compareOn Component.rank) (compareOn Component.bytes) := by
  funext a b
  cases a with
  | name first =>
      cases b with
      | name second =>
          simp only [LicenseStamp.Component.compare, Bytes.compare_eq_compare]
          rfl
      | root | here | up => rfl
  | root | here | up => cases b <;> rfl

instance : Std.TransCmp LicenseStamp.Component.compare :=
  component_compare_eq_compareLex ▸ inferInstance

instance : Std.LawfulEqCmp LicenseStamp.Component.compare where
  eq_of_compare := by
    intro a b h
    rw [component_compare_eq_compareLex, compareLex_eq_eq, compareOn, compareOn,
      Std.LawfulEqCmp.compare_eq_iff_eq, Std.LawfulEqCmp.compare_eq_iff_eq] at h
    obtain ⟨hrank, hbytes⟩ := h
    cases a with
    | name first =>
        cases b with
        | name second => exact congrArg LicenseStamp.Component.name hbytes
        | root | here | up => cases hrank
    | root =>
        cases b with
        | root => rfl
        | name | here | up => cases hrank
    | here =>
        cases b with
        | here => rfl
        | name | root | up => cases hrank
    | up =>
        cases b with
        | up => rfl
        | name | root | here => cases hrank

theorem compareComponents_eq_compareLex :
    compareComponents = List.compareLex LicenseStamp.Component.compare := by
  funext first second
  fun_induction compareComponents first second with
  | case1 | case2 | case3 => rfl
  | case4 a as b bs ih => rw [List.compareLex_cons_cons, ih]

instance : Std.TransCmp compareComponents :=
  compareComponents_eq_compareLex ▸ inferInstance

instance : Std.LawfulEqCmp compareComponents :=
  compareComponents_eq_compareLex ▸ inferInstance

variable {a b c : Path} {first second : List Path}

theorem compare_eq_iff : compare a b = .eq ↔ a.components = b.components := by
  rw [compare, Std.LawfulEqCmp.compare_eq_iff_eq]

theorem le_trans (hab : le a b = true) (hbc : le b c = true) : le a c = true := by
  rw [le, compare] at hab hbc ⊢
  exact Std.TransCmp.isLE_trans hab hbc

theorem le_total (a b : Path) : (le a b || le b a) = true := by
  have hswap : compare a b = (compare b a).swap := by
    rw [compare, compare]
    exact Std.OrientedCmp.eq_swap
  rw [le, le, hswap]
  cases compare b a <;> rfl

theorem components_eq_of_le (hab : le a b = true) (hba : le b a = true) :
    a.components = b.components := by
  rw [le, compare] at hab hba
  have hsame : compareComponents a.components b.components = .eq :=
    Std.OrientedCmp.isLE_antisymm hab hba
  exact compare_eq_iff.1 hsame

theorem pairwise_sort (paths : List Path) : (sort paths).Pairwise fun a b => le a b = true :=
  @List.pairwise_mergeSort Path le (fun _ _ _ => le_trans) le_total paths

theorem mem_sort {path : Path} {paths : List Path} : path ∈ sort paths ↔ path ∈ paths :=
  List.mem_mergeSort

/-- Paths with different components are sorted into one order. -/
theorem sort_eq_of_perm (h : first.Perm second)
    (hinj : ∀ a ∈ first, ∀ b ∈ first, a.components = b.components → a = b) :
    sort first = sort second := by
  have hperm : (sort first).Perm (sort second) :=
    (List.mergeSort_perm _ _).trans (h.trans (List.mergeSort_perm _ _).symm)
  refine hperm.eq_of_pairwise ?_ (pairwise_sort first) (pairwise_sort second)
  intro a b ha hb hab hba
  exact hinj a (mem_sort.1 ha) b (h.mem_iff.2 (mem_sort.1 hb)) (components_eq_of_le hab hba)

/-- Of paths with different components each comes before the next one. -/
theorem pairwise_lt_sort {paths : List Path} (h : (paths.map components).Nodup) :
    (sort paths).Pairwise fun a b => compare a b = .lt := by
  have hperm : ((sort paths).map components).Perm (paths.map components) :=
    (List.mergeSort_perm paths le).map components
  have hne := List.pairwise_map.1 (hperm.nodup_iff.2 h)
  refine ((pairwise_sort paths).and hne).imp ?_
  rintro a b ⟨hle, hdiffer⟩
  rw [le, Ordering.isLE_iff_eq_lt_or_eq_eq, compare_eq_iff] at hle
  exact hle.resolve_right hdiffer

theorem compareComponents_eq_lt_iff {first second : List Component} :
    compareComponents first second = .lt ↔ List.Lex Component.Precedes first second := by
  fun_induction compareComponents first second with
  | case1 => simp
  | case2 => simp
  | case3 => simp
  | case4 a as b bs ih =>
      rw [Ordering.then_eq_lt, LicenseStamp.Component.compare_eq_lt_iff,
        Std.LawfulEqCmp.compare_eq_iff_eq, ih, List.cons_lex_cons_iff]

theorem le_iff : le a b = true ↔ a.Precedes b ∨ a.components = b.components := by
  rw [le, Ordering.isLE_iff_eq_lt_or_eq_eq, compare_eq_iff, compare, compareComponents_eq_lt_iff,
    Precedes]

/-- Sorting leaves paths with the same components in the order they came in. -/
theorem filter_sort (paths : List Path) (components : List Component) :
    (sort paths).filter (fun path => path.components = components) =
      paths.filter fun path => path.components = components := by
  let same := paths.filter fun path => path.components = components
  have hsame : same.Pairwise fun a b => le a b = true := by
    refine List.pairwise_of_forall_mem_list fun a ha b hb => le_iff.2 (.inr ?_)
    have hcomponents : ∀ path ∈ same, path.components = components := fun path h => by
      simpa using (List.mem_filter.1 h).2
    rw [hcomponents a ha, hcomponents b hb]
  have hsub : same.Sublist (sort paths) :=
    @List.sublist_mergeSort Path le paths (fun _ _ _ => le_trans) le_total same hsame
      List.filter_sublist
  have hkept := hsub.filter fun path => path.components = components
  rw [List.filter_filter] at hkept
  simp only [Bool.and_self] at hkept
  refine (hkept.eq_of_length ?_).symm
  exact (((List.mergeSort_perm paths le).filter _).length_eq).symm

/-- In whatever order paths come in, sorting gives the same components at each position. -/
theorem map_components_sort_of_perm (h : first.Perm second) :
    (sort first).map components = (sort second).map components := by
  have hperm : ((sort first).map components).Perm ((sort second).map components) :=
    (((List.mergeSort_perm _ _).trans h).trans (List.mergeSort_perm _ _).symm).map components
  have hsorted : ∀ paths : List Path, ((sort paths).map components).Pairwise fun a b =>
      (compareComponents a b).isLE = true := fun paths => List.pairwise_map.2 (pairwise_sort paths)
  refine hperm.eq_of_pairwise (fun a b _ _ hab hba => ?_) (hsorted first) (hsorted second)
  have hequal : compareComponents a b = .eq := Std.OrientedCmp.isLE_antisymm hab hba
  exact Std.LawfulEqCmp.eq_of_compare hequal

end Path

end LicenseStamp

import LicenseStamp.Selection.Filter
import Mathlib.Data.List.Lex

/-! # Trees of filters and their leaves

A place in a tree of filters is the way down to it, as a list of numbers. The order of the places is
the order in which the leaves are met when the tree is walked depth first. What the tree says about a
path is what the first leaf says that does not let it pass. How the leaves are grouped, and which
leaves come later, does not matter.
-/

namespace LicenseStamp.Filter

variable {ε : Type}

abbrev Rule (ε : Type) := Path → Except ε Verdict

/-- A place at which a tree has a leaf: in each group on the way down, the number of the filter to
    enter. -/
inductive HasLeaf : Filter ε → List Nat → Rule ε → Prop where
  | rule {leaf : Rule ε} : HasLeaf (.rule leaf) [] leaf
  | all {filters : List (Filter ε)} {index : Nat} {filter : Filter ε} {place : List Nat}
      {leaf : Rule ε} : filters[index]? = some filter → HasLeaf filter place leaf →
      HasLeaf (.all filters) (index :: place) leaf

/-- The first leaf, in the order of the places, that does not let a path pass. -/
structure DecidedAt (filter : Filter ε) (path : Path) (place : List Nat) (leaf : Rule ε) : Prop where
  hasLeaf : filter.HasLeaf place leaf
  stops : leaf path ≠ .ok .pass
  passed : ∀ earlier other, filter.HasLeaf earlier other → earlier < place → other path = .ok .pass

mutual

/-- The leaves of a filter with their places, from left to right. -/
def sites : Filter ε → List (List Nat × Rule ε)
  | .rule leaf => [([], leaf)]
  | .all filters => sitesFrom 0 filters

def sitesFrom (first : Nat) : List (Filter ε) → List (List Nat × Rule ε)
  | [] => []
  | filter :: rest =>
      filter.sites.map (fun site => (first :: site.1, site.2)) ++ sitesFrom (first + 1) rest

end

/-- The leaves of a filter in a row, without regard to how they are grouped. -/
def leaves (filter : Filter ε) : List (Rule ε) := filter.sites.map Prod.snd

variable {filter : Filter ε} {before after rest : List (Filter ε)} {path : Path}
variable {place : List Nat} {leaf : Rule ε} {rules seen : List (Rule ε)}

/-! ## The order of the leaves -/

mutual

theorem mem_sites (filter : Filter ε) (place : List Nat) (leaf : Rule ε) :
    (place, leaf) ∈ filter.sites ↔ filter.HasLeaf place leaf := by
  cases filter with
  | rule own =>
      simp only [sites, List.mem_singleton, Prod.mk.injEq]
      constructor
      · rintro ⟨rfl, rfl⟩
        exact .rule
      · intro h
        cases h
        exact ⟨rfl, rfl⟩
  | all filters =>
      simp only [sites, mem_sitesFrom 0 filters, Nat.zero_add]
      constructor
      · rintro ⟨index, filter, below, hfilter, rfl, hleaf⟩
        exact .all hfilter hleaf
      · intro h
        cases h with
        | all hfilter hleaf => exact ⟨_, _, _, hfilter, rfl, hleaf⟩

theorem mem_sitesFrom (first : Nat) (filters : List (Filter ε)) (place : List Nat) (leaf : Rule ε) :
    (place, leaf) ∈ sitesFrom first filters ↔ ∃ index filter below,
      filters[index]? = some filter ∧ place = (first + index) :: below ∧
        filter.HasLeaf below leaf := by
  cases filters with
  | nil => simp [sitesFrom]
  | cons filter rest =>
      simp only [sitesFrom, List.mem_append, List.mem_map, Prod.exists, Prod.mk.injEq,
        mem_sites filter, mem_sitesFrom (first + 1) rest]
      constructor
      · rintro (⟨below, _, hleaf, rfl, rfl⟩ | ⟨index, inner, below, hinner, rfl, hleaf⟩)
        · exact ⟨0, filter, below, rfl, rfl, hleaf⟩
        · exact ⟨index + 1, inner, below, hinner, congrArg (· :: below) (by omega), hleaf⟩
      · rintro ⟨index, inner, below, hinner, rfl, hleaf⟩
        cases index with
        | zero =>
            cases hinner
            exact .inl ⟨below, leaf, hleaf, rfl, rfl⟩
        | succ index =>
            exact .inr ⟨index, inner, below, hinner, congrArg (· :: below) (by omega), hleaf⟩

end

mutual

theorem pairwise_sites (filter : Filter ε) :
    filter.sites.Pairwise fun site later => site.1 < later.1 := by
  cases filter with
  | rule leaf => exact List.pairwise_singleton _ _
  | all filters => exact pairwise_sitesFrom 0 filters

theorem pairwise_sitesFrom (first : Nat) (filters : List (Filter ε)) :
    (sitesFrom first filters).Pairwise fun site later => site.1 < later.1 := by
  cases filters with
  | nil => exact List.Pairwise.nil
  | cons filter rest =>
      apply List.pairwise_append.2
      refine ⟨?_, pairwise_sitesFrom (first + 1) rest, ?_⟩
      · apply List.pairwise_map.2
        exact (pairwise_sites filter).imp fun hlt => List.cons_lt_cons_iff.2 (.inr ⟨rfl, hlt⟩)
      · -- leaves of different filters are told apart by the first number of their places
        intro site hsite later hlater
        obtain ⟨_, -, rfl⟩ := List.mem_map.1 hsite
        obtain ⟨index, _, below, -, hplace, -⟩ := (mem_sitesFrom _ _ later.1 later.2).1 hlater
        rw [hplace]
        exact List.cons_lt_cons_iff.2 (.inl (by omega))

end

/-- The leaves in front of a leaf are those at earlier places. -/
theorem mem_front_iff {front back : List (List Nat × Rule ε)} {site other : List Nat × Rule ε}
    (hsites : filter.sites = front ++ site :: back) :
    other ∈ front ↔ other ∈ filter.sites ∧ other.1 < site.1 := by
  have hsorted := pairwise_sites filter
  rw [hsites, List.pairwise_append, List.pairwise_cons] at hsorted
  obtain ⟨-, ⟨hback, -⟩, hfront⟩ := hsorted
  rw [hsites]
  constructor
  · intro hother
    exact ⟨List.mem_append_left _ hother, hfront other hother site List.mem_cons_self⟩
  · rintro ⟨hother, hlt⟩
    rcases List.mem_append.1 hother with hother | hother
    · exact hother
    · rcases List.mem_cons.1 hother with rfl | hother
      · exact absurd hlt (lt_irrefl _)
      · exact absurd hlt (lt_asymm (hback other hother))

theorem DecidedAt.of_sites {front back : List (List Nat × Rule ε)}
    (hsites : filter.sites = front ++ (place, leaf) :: back) (hstop : leaf path ≠ .ok .pass)
    (hfront : ∀ site ∈ front, site.2 path = .ok .pass) : filter.DecidedAt path place leaf := by
  refine ⟨?_, hstop, ?_⟩
  · rw [← mem_sites, hsites]
    exact List.mem_append_right _ List.mem_cons_self
  · intro earlier other hother hlt
    exact hfront (earlier, other) ((mem_front_iff hsites).2 ⟨(mem_sites _ _ _).2 hother, hlt⟩)

/-! ## The row of the leaves -/

@[simp] theorem leaves_rule (leaf : Rule ε) : (Filter.rule leaf).leaves = [leaf] := rfl

theorem map_snd_sitesFrom (first : Nat) (filters : List (Filter ε)) :
    (sitesFrom first filters).map Prod.snd = filters.flatMap leaves := by
  induction filters generalizing first with
  | nil => rfl
  | cons filter rest ih =>
      have hfirst : (filter.sites.map fun site => (first :: site.1, site.2)).map Prod.snd =
          filter.leaves := by simp only [List.map_map, leaves, Function.comp_def]
      rw [sitesFrom, List.map_append, hfirst, ih, List.flatMap_cons]

@[simp] theorem leaves_all (filters : List (Filter ε)) :
    (Filter.all filters).leaves = filters.flatMap leaves :=
  map_snd_sitesFrom 0 filters

theorem mem_leaves : leaf ∈ filter.leaves ↔ ∃ place, filter.HasLeaf place leaf := by
  simp [leaves, mem_sites]

/-! ## What a tree says -/

theorem judgeAll_cons_of_pass (h : filter.judge path = .ok .pass) :
    judgeAll (filter :: rest) path = judgeAll rest path := by
  simp only [judgeAll, h]

theorem judgeAll_cons_of_stop (h : filter.judge path ≠ .ok .pass) :
    judgeAll (filter :: rest) path = filter.judge path := by
  rw [judgeAll]
  split
  next hpass => exact absurd hpass h
  · rfl

theorem judgeAll_append_of_pass (h : judgeAll before path = .ok .pass) :
    judgeAll (before ++ after) path = judgeAll after path := by
  induction before with
  | nil => rfl
  | cons filter rest ih =>
      by_cases hfilter : filter.judge path = .ok .pass
      · rw [judgeAll_cons_of_pass hfilter] at h
        rw [List.cons_append, judgeAll_cons_of_pass hfilter, ih h]
      · rw [judgeAll_cons_of_stop hfilter] at h
        exact absurd h hfilter

theorem judgeAll_append_of_stop (h : judgeAll before path ≠ .ok .pass) :
    judgeAll (before ++ after) path = judgeAll before path := by
  induction before with
  | nil => exact absurd rfl h
  | cons filter rest ih =>
      by_cases hfilter : filter.judge path = .ok .pass
      · rw [judgeAll_cons_of_pass hfilter] at h
        rw [List.cons_append, judgeAll_cons_of_pass hfilter, judgeAll_cons_of_pass hfilter, ih h]
      · rw [List.cons_append, judgeAll_cons_of_stop hfilter, judgeAll_cons_of_stop hfilter]

mutual

/-- A tree says what its leaves say when they are asked in a row. -/
theorem judgeAll_leaves (filter : Filter ε) (path : Path) :
    judgeAll (filter.leaves.map .rule) path = filter.judge path := by
  cases filter with
  | rule leaf =>
      rw [leaves_rule, List.map_singleton]
      by_cases hpass : (Filter.rule leaf).judge path = .ok .pass
      · rw [judgeAll_cons_of_pass hpass, hpass, judgeAll]
      · exact judgeAll_cons_of_stop hpass
  | all filters => rw [leaves_all, judge, judgeAll_flatMap_leaves filters path]

theorem judgeAll_flatMap_leaves (filters : List (Filter ε)) (path : Path) :
    judgeAll ((filters.flatMap leaves).map .rule) path = judgeAll filters path := by
  cases filters with
  | nil => rfl
  | cons filter rest =>
      have hfirst := judgeAll_leaves filter path
      rw [List.flatMap_cons, List.map_append]
      by_cases hfilter : filter.judge path = .ok .pass
      · rw [judgeAll_append_of_pass (hfirst.trans hfilter), judgeAll_cons_of_pass hfilter,
          judgeAll_flatMap_leaves rest path]
      · rw [judgeAll_append_of_stop (hfirst.symm ▸ hfilter), judgeAll_cons_of_stop hfilter, hfirst]

end

theorem judgeAll_rules_eq_pass_iff :
    judgeAll (rules.map .rule) path = .ok .pass ↔ ∀ leaf ∈ rules, leaf path = .ok .pass := by
  induction rules with
  | nil => simp [judgeAll]
  | cons leaf rest ih =>
      have hleaf : (Filter.rule leaf).judge path = leaf path := by rw [judge]
      rw [List.map_cons, List.forall_mem_cons]
      by_cases hpass : leaf path = .ok .pass
      · rw [judgeAll_cons_of_pass (hleaf.trans hpass), ih]
        simp [hpass]
      · rw [judgeAll_cons_of_stop (hleaf ▸ hpass), hleaf]
        simp [hpass]

theorem judge_eq_pass_iff :
    filter.judge path = .ok .pass ↔ ∀ leaf ∈ filter.leaves, leaf path = .ok .pass := by
  rw [← judgeAll_leaves, judgeAll_rules_eq_pass_iff]

/-- The leaves behind one that does not let a path pass are not asked. -/
theorem judge_of_stop (hseen : seen <+: filter.leaves)
    (hstop : ∃ leaf ∈ seen, leaf path ≠ .ok .pass) :
    filter.judge path = judgeAll (seen.map .rule) path := by
  obtain ⟨unseen, hleaves⟩ := hseen
  have hne : judgeAll (seen.map .rule) path ≠ .ok .pass := by
    intro hpass
    obtain ⟨leaf, hleaf, hne⟩ := hstop
    exact hne (judgeAll_rules_eq_pass_iff.1 hpass leaf hleaf)
  rw [← judgeAll_leaves, ← hleaves, List.map_append, judgeAll_append_of_stop hne]

theorem DecidedAt.judge_eq (h : filter.DecidedAt path place leaf) :
    filter.judge path = leaf path := by
  obtain ⟨front, back, hsites⟩ := List.append_of_mem ((mem_sites _ _ _).2 h.hasLeaf)
  have hseen : front.map Prod.snd ++ [leaf] <+: filter.leaves :=
    ⟨back.map Prod.snd, by simp [leaves, hsites]⟩
  have hfront : judgeAll ((front.map Prod.snd).map .rule) path = .ok .pass := by
    apply judgeAll_rules_eq_pass_iff.2
    intro earlier hearlier
    obtain ⟨site, hsite, rfl⟩ := List.mem_map.1 hearlier
    obtain ⟨hmem, hlt⟩ := (mem_front_iff hsites).1 hsite
    exact h.passed site.1 site.2 ((mem_sites _ _ _).1 hmem) hlt
  rw [judge_of_stop hseen ⟨leaf, by simp, h.stops⟩, List.map_append, judgeAll_append_of_pass hfront]
  exact judgeAll_cons_of_stop h.stops

theorem exists_decidedAt (h : filter.judge path ≠ .ok .pass) :
    ∃ place leaf, filter.DecidedAt path place leaf := by
  classical
  obtain ⟨leaf, hleaf, hstop⟩ : ∃ leaf ∈ filter.leaves, leaf path ≠ .ok .pass := by
    simpa [judge_eq_pass_iff] using h
  obtain ⟨site, hsite, rfl⟩ := List.mem_map.1 hleaf
  let stops : List Nat × Rule ε → Bool := fun site => decide (site.2 path ≠ .ok .pass)
  obtain ⟨⟨place, first⟩, front, back, hfront, hfirst, hsites, -⟩ :=
    List.exists_of_eraseP (p := stops) hsite (decide_eq_true hstop)
  exact ⟨place, first, .of_sites hsites (of_decide_eq_true hfirst) (by simpa [stops] using hfront)⟩

/-- A tree of filters lets a path pass if and only if all its leaves do. Otherwise its verdict is that of
    the leftmost leaf that skips the path or fails. It stays the same in every tree whose row of leaves
    starts alike, up to that leaf, and in every other grouping of the same leaves. -/
theorem judge_by_leaves (filter : Filter ε) (path : Path) :
    (filter.judge path = .ok .pass ↔
        ∀ place leaf, filter.HasLeaf place leaf → leaf path = .ok .pass) ∧
      (∀ result, result ≠ .ok .pass →
        (filter.judge path = result ↔
          ∃ place leaf, filter.DecidedAt path place leaf ∧ leaf path = result)) ∧
      (∀ (other : Filter ε) (seen : List (Rule ε)), seen <+: filter.leaves → seen <+: other.leaves →
        (∃ leaf ∈ seen, leaf path ≠ .ok .pass) → other.judge path = filter.judge path) ∧
      ∀ other : Filter ε, other.leaves = filter.leaves → other.judge path = filter.judge path := by
  refine ⟨?_, ?_, ?_, ?_⟩
  · rw [judge_eq_pass_iff]
    simp only [mem_leaves, forall_exists_index]
    exact forall_comm
  · intro result hresult
    constructor
    · rintro rfl
      obtain ⟨place, leaf, hdecided⟩ := exists_decidedAt hresult
      exact ⟨place, leaf, hdecided, hdecided.judge_eq.symm⟩
    · rintro ⟨place, leaf, hdecided, rfl⟩
      exact hdecided.judge_eq
  · intro other seen hseen hother hstop
    rw [judge_of_stop hseen hstop, judge_of_stop hother hstop]
  · intro other hleaves
    rw [← judgeAll_leaves, hleaves, judgeAll_leaves]

/-- A failure behind a leaf that skips absolute paths: hidden for these, and decisive for all others. -/
theorem judge_by_leaves_hidden_failure :
    let accepts : Rule Text := fun _ => .ok .pass
    let skips : Rule Text := fun path => .ok (if path.isAbsolute then .skip ['s'] else .pass)
    let fails : Rule Text := fun _ => .error ['f']
    let nested : Filter Text :=
      .all [.all [.rule accepts, .all []], .all [.rule skips, .rule fails, .rule accepts]]
    let regrouped : Filter Text :=
      .all [.rule accepts, .all [.all [.rule skips], .rule fails], .rule accepts]
    let shorter : Filter Text := .all [.rule accepts, .rule skips]
    let rooted : Path := ⟨[Path.slash]⟩
    let bare : Path := ⟨[]⟩
    nested.DecidedAt rooted [1, 0] skips ∧ nested.judge rooted = .ok (.skip ['s']) ∧
      nested.DecidedAt bare [1, 1] fails ∧ nested.judge bare = .error ['f'] ∧
      [accepts, skips] <+: nested.leaves ∧ [accepts, skips] <+: shorter.leaves ∧
      shorter.judge rooted = nested.judge rooted ∧
      regrouped.leaves = nested.leaves ∧ regrouped.judge bare = nested.judge bare := by
  intro accepts skips fails nested regrouped shorter rooted bare
  have hskips : skips rooted ≠ .ok .pass := by
    intro h
    cases h
  have hfails : fails bare ≠ .ok .pass := by
    intro h
    cases h
  have hrooted : nested.sites = [([0, 0], accepts)] ++
      ([1, 0], skips) :: [([1, 1], fails), ([1, 2], accepts)] := rfl
  have hbare : nested.sites = [([0, 0], accepts), ([1, 0], skips)] ++
      ([1, 1], fails) :: [([1, 2], accepts)] := rfl
  have hskipped : nested.DecidedAt rooted [1, 0] skips := .of_sites hrooted hskips (by
    intro site hsite
    cases List.mem_singleton.1 hsite
    rfl)
  have hfailed : nested.DecidedAt bare [1, 1] fails := .of_sites hbare hfails (by
    intro site hsite
    rcases List.mem_pair.1 hsite with rfl | rfl <;> rfl)
  have hnested : [accepts, skips] <+: nested.leaves := ⟨[fails, accepts], rfl⟩
  have hshorter : [accepts, skips] <+: shorter.leaves := ⟨[], rfl⟩
  have hregrouped : regrouped.leaves = nested.leaves := rfl
  obtain ⟨-, hdecides, hbehind, -⟩ := judge_by_leaves nested rooted
  obtain ⟨-, hdecides', -, hgroups⟩ := judge_by_leaves nested bare
  exact ⟨hskipped, (hdecides _ hskips).2 ⟨_, _, hskipped, rfl⟩, hfailed,
    (hdecides' _ hfails).2 ⟨_, _, hfailed, rfl⟩, hnested, hshorter,
    hbehind shorter _ hnested hshorter ⟨skips, by simp, hskips⟩, hregrouped,
    hgroups regrouped hregrouped⟩

end LicenseStamp.Filter

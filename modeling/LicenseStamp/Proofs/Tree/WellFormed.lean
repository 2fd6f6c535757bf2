import LicenseStamp.Proofs.Path.Descent
import LicenseStamp.Proofs.Tree.Leads
import Mathlib.Data.List.Nodup

/-! # Well-formed trees and what a walk sees in them

In a well-formed tree the entries of a directory have proper names and no two of them the
same, as on every disk. Then the list of entries and the look-up by name agree, and what a
walk meets at a place is what the tree holds there.
-/

namespace LicenseStamp

/-- The nodes that a walk meets as one sight. -/
inductive Sight.Shows : Sight → Node → Prop where
  | file (content : Bytes) : Shows .file (.file content)
  | link (target : Path) : Shows .link (.link target)
  | passed (entries : List (Bytes × Node)) : Shows .passed (.dir entries)

namespace Node

mutual

/-- Whether the directories of a tree have proper names for their entries, no name twice. -/
def isWellFormed : Node → Bool
  | .file _ | .link _ | .device _ => true
  | .dir entries => areWellFormed entries

/-- Whether directory entries have proper names, no name twice, and so has all below them. -/
def areWellFormed : List (Bytes × Node) → Bool
  | [] => true
  | (name, node) :: rest =>
    Bytes.isName name && (rest.lookup name).isNone && isWellFormed node && areWellFormed rest

end

theorem areWellFormed_cons {name : Bytes} {node : Node} {rest : List (Bytes × Node)}
    (h : areWellFormed ((name, node) :: rest) = true) :
    name.isName = true ∧ rest.lookup name = none ∧ node.isWellFormed = true ∧
      areWellFormed rest = true := by
  simpa only [areWellFormed, Bool.and_eq_true, Option.isNone_iff_eq_none, and_assoc] using h

theorem isWellFormed_of_lookup {entries : List (Bytes × Node)} {name : Bytes} {node : Node}
    (h : areWellFormed entries = true) (hlookup : entries.lookup name = some node) :
    name.isName = true ∧ node.isWellFormed = true := by
  induction entries with
  | nil => cases hlookup
  | cons entry rest ih =>
      obtain ⟨other, first⟩ := entry
      obtain ⟨hname, -, hfirst, hrest⟩ := areWellFormed_cons h
      rw [List.lookup_cons] at hlookup
      cases hsame : name == other with
      | false =>
          rw [hsame] at hlookup
          exact ih hrest hlookup
      | true =>
          rw [hsame, Option.some.injEq] at hlookup
          rw [eq_of_beq hsame, ← hlookup]
          exact ⟨hname, hfirst⟩

theorem isWellFormed_of_get? {tree node : Node} {location : Location}
    (h : tree.isWellFormed = true) (hget : tree.get? location = some node) :
    node.isWellFormed = true := by
  induction location generalizing tree with
  | nil =>
      simp only [get?, Option.some.injEq] at hget
      exact hget ▸ h
  | cons name rest ih =>
      obtain ⟨entries, next, rfl, hlookup, hrest⟩ := get?_cons_eq_some_iff.1 hget
      exact ih (isWellFormed_of_lookup h hlookup).2 hrest

mutual

theorem isWellFormed_shape (node : Node) : node.shape.isWellFormed = node.isWellFormed := by
  cases node with
  | file | link | device => rfl
  | dir entries => exact areWellFormed_shapeOf entries

theorem areWellFormed_shapeOf (entries : List (Bytes × Node)) :
    areWellFormed (shapeOf entries) = areWellFormed entries := by
  cases entries with
  | nil => rfl
  | cons entry rest =>
      obtain ⟨name, node⟩ := entry
      simp only [shapeOf, areWellFormed, lookup_shapeOf, Option.isNone_map, isWellFormed_shape node,
        areWellFormed_shapeOf rest]

end

mutual

/-- Whether a test holds of all names in a tree. -/
def allNames (test : Bytes → Bool) : Node → Bool
  | .file _ | .link _ | .device _ => true
  | .dir entries => allEntryNames test entries

/-- Whether a test holds of the names of directory entries and of all names below them. -/
def allEntryNames (test : Bytes → Bool) : List (Bytes × Node) → Bool
  | [] => true
  | (name, node) :: rest => test name && allNames test node && allEntryNames test rest

end

theorem allNames_of_lookup {test : Bytes → Bool} {entries : List (Bytes × Node)} {name : Bytes}
    {node : Node} (h : allEntryNames test entries = true) (hlookup : entries.lookup name = some node) :
    test name = true ∧ node.allNames test = true := by
  induction entries with
  | nil => cases hlookup
  | cons entry rest ih =>
      obtain ⟨other, first⟩ := entry
      simp only [allEntryNames, Bool.and_eq_true] at h
      rw [List.lookup_cons] at hlookup
      cases hsame : name == other with
      | false =>
          rw [hsame] at hlookup
          exact ih h.2 hlookup
      | true =>
          rw [hsame, Option.some.injEq] at hlookup
          rw [eq_of_beq hsame, ← hlookup]
          exact h.1

/-- The test holds of the names on the way to each node. -/
theorem allNames_of_get? {test : Bytes → Bool} {tree node : Node} {location : Location}
    (h : tree.allNames test = true) (hget : tree.get? location = some node) :
    ∀ name ∈ location, test name = true := by
  induction location generalizing tree with
  | nil => exact List.forall_mem_nil _
  | cons name rest ih =>
      obtain ⟨entries, next, rfl, hlookup, hrest⟩ := get?_cons_eq_some_iff.1 hget
      obtain ⟨hname, hnext⟩ := allNames_of_lookup h hlookup
      exact List.forall_mem_cons.2 ⟨hname, ih hnext hrest⟩

theorem lookup_cons_of_some {name other : Bytes} {node found : Node} {rest : List (Bytes × Node)}
    (hname : rest.lookup name = none) (h : rest.lookup other = some found) :
    ((name, node) :: rest).lookup other = some found := by
  have hne : (other == name) = false := by
    refine beq_false_of_ne ?_
    rintro rfl
    rw [hname] at h
    cases h
  rw [List.lookup_cons, hne]
  exact h

/-- What a walk sees at a place below directory entries. -/
inductive Sees : List (Bytes × Node) → Location → Sight → Prop where
  /-- A file is seen. -/
  | file {entries : List (Bytes × Node)} {name content : Bytes}
      (hentry : entries.lookup name = some (.file content)) : Sees entries [name] .file
  /-- A link is seen itself. -/
  | link {entries : List (Bytes × Node)} {name : Bytes} {target : Path}
      (hentry : entries.lookup name = some (.link target)) : Sees entries [name] .link
  /-- A directory with a skipped name is passed by. -/
  | passed {entries inner : List (Bytes × Node)} {name : Bytes}
      (hentry : entries.lookup name = some (.dir inner))
      (hname : Filter.isSkippedDirName name = true) : Sees entries [name] .passed
  /-- Any other directory is entered. -/
  | inside {entries inner : List (Bytes × Node)} {name : Bytes} {place : Location} {sight : Sight}
      (hentry : entries.lookup name = some (.dir inner))
      (hname : Filter.isSkippedDirName name = false) (onward : Sees inner place sight) :
      Sees entries (name :: place) sight

namespace Sees

variable {entries : List (Bytes × Node)} {place : Location} {sight : Sight}

theorem exists_cons (h : Sees entries place sight) :
    ∃ name rest, place = name :: rest ∧ (entries.lookup name).isSome := by
  cases h with
  | file hentry | link hentry | passed hentry _ | inside hentry _ _ =>
      exact ⟨_, _, rfl, by simp [hentry]⟩

theorem ne_nil (h : Sees entries place sight) : place ≠ [] := by
  obtain ⟨name, rest, rfl, -⟩ := h.exists_cons
  exact List.cons_ne_nil _ _

/-- What is seen among some entries is seen with another entry in front of them. -/
theorem cons {name : Bytes} {node : Node} (h : Sees entries place sight)
    (hname : entries.lookup name = none) : Sees ((name, node) :: entries) place sight := by
  cases h with
  | file hentry => exact .file (lookup_cons_of_some hname hentry)
  | link hentry => exact .link (lookup_cons_of_some hname hentry)
  | passed hentry hskip => exact .passed (lookup_cons_of_some hname hentry) hskip
  | inside hentry hskip onward =>
      exact .inside (lookup_cons_of_some hname hentry) hskip onward

theorem isName (h : Sees entries place sight) (hwf : areWellFormed entries = true) :
    ∀ name ∈ place, Bytes.isName name = true := by
  induction h with
  | file hentry | link hentry | passed hentry _ =>
      intro name hname
      rw [List.mem_singleton.1 hname]
      exact (isWellFormed_of_lookup hwf hentry).1
  | inside hentry _ _ ih =>
      obtain ⟨hfirst, hinner⟩ := isWellFormed_of_lookup hwf hentry
      intro name hname
      rcases List.mem_cons.1 hname with rfl | hname
      · exact hfirst
      · exact ih hinner name hname

/-- The tree holds what is seen at a place. -/
theorem exists_get? (h : Sees entries place sight) :
    ∃ node, (Node.dir entries).get? place = some node ∧ sight.Shows node := by
  induction h with
  | @file _ _ content hentry =>
      exact ⟨.file content, by simp only [get?, hentry, Option.bind_some], .file content⟩
  | @link _ _ target hentry =>
      exact ⟨.link target, by simp only [get?, hentry, Option.bind_some], .link target⟩
  | @passed _ inner _ hentry _ =>
      exact ⟨.dir inner, by simp only [get?, hentry, Option.bind_some], .passed inner⟩
  | inside hentry _ _ ih => simpa only [get?, hentry, Option.bind_some] using ih

/-- Nothing is seen inside a directory with a skipped name. -/
theorem isSkippedDirName_eq_false (h : Sees entries place sight) :
    ∀ name ∈ place.dropLast, Filter.isSkippedDirName name = false := by
  induction h with
  | file | link | passed =>
      intro name hname
      cases hname
  | inside _ hskip onward ih =>
      intro name hname
      rw [List.dropLast_cons_of_ne_nil onward.ne_nil] at hname
      rcases List.mem_cons.1 hname with rfl | hname
      · exact hskip
      · exact ih name hname

end Sees

end Node

namespace Walk

theorem visits_andThen (first second : Walk) :
    (first.andThen second).visits = first.visits ∨
      (first.andThen second).visits = first.visits ++ second.visits := by
  unfold andThen
  split
  · exact .inl rfl
  · exact .inr rfl

theorem mem_visits_andThen {first second : Walk} {visit : Visit}
    (h : visit ∈ (first.andThen second).visits) : visit ∈ first.visits ∨ visit ∈ second.visits := by
  rcases visits_andThen first second with heq | heq
  · exact .inl (heq ▸ h)
  · exact List.mem_append.1 (heq ▸ h)

theorem nodup_andThen {first second : Walk} (hfirst : (first.visits.map Visit.place).Nodup)
    (hsecond : (second.visits.map Visit.place).Nodup)
    (hdisjoint : ∀ visit ∈ first.visits, ∀ later ∈ second.visits, visit.place ≠ later.place) :
    ((first.andThen second).visits.map Visit.place).Nodup := by
  rcases visits_andThen first second with heq | heq
  · rwa [heq]
  · rw [heq, List.map_append]
    refine List.Nodup.append hfirst hsecond ?_
    intro place hmem hmem'
    obtain ⟨visit, hvisit, rfl⟩ := List.mem_map.1 hmem
    obtain ⟨later, hlater, hsame⟩ := List.mem_map.1 hmem'
    exact hdisjoint visit hvisit later hlater hsame.symm

theorem nodup_below {walk : Walk} (name : Bytes) (h : (walk.visits.map Visit.place).Nodup) :
    ((walk.below name).visits.map Visit.place).Nodup := by
  have hplaces : (walk.below name).visits.map Visit.place =
      (walk.visits.map Visit.place).map (name :: ·) := by
    simp only [below, List.map_map]
    rfl
  rw [hplaces]
  exact h.map List.cons_injective

end Walk

namespace Node

/-- What a walk meets is there to be seen. -/
theorem sees_of_mem_walk {path : Path} {entries : List (Bytes × Node)} {visit : Visit}
    (hwf : areWellFormed entries = true) (hvisit : visit ∈ (Node.walk path entries).visits) :
    Sees entries visit.place visit.sight := by
  induction path, entries using Node.walk.induct generalizing visit with
  | case1 =>
      rw [Node.walk] at hvisit
      cases hvisit
  | case2 path name content rest ih =>
      obtain ⟨-, hname, -, hrest⟩ := areWellFormed_cons hwf
      rw [Node.walk] at hvisit
      rcases Walk.mem_visits_andThen hvisit with hfirst | hlater
      · obtain rfl := List.mem_singleton.1 hfirst
        exact .file List.lookup_cons_self
      · exact (ih hrest hlater).cons hname
  | case3 path name target rest ih =>
      obtain ⟨-, hname, -, hrest⟩ := areWellFormed_cons hwf
      rw [Node.walk] at hvisit
      rcases Walk.mem_visits_andThen hvisit with hfirst | hlater
      · obtain rfl := List.mem_singleton.1 hfirst
        exact .link List.lookup_cons_self
      · exact (ih hrest hlater).cons hname
  | case4 path name full rest ih =>
      obtain ⟨-, hname, -, hrest⟩ := areWellFormed_cons hwf
      rw [Node.walk] at hvisit
      exact (ih hrest hvisit).cons hname
  | case5 path name entries rest ihInside ih =>
      obtain ⟨-, hname, hinner, hrest⟩ := areWellFormed_cons hwf
      rw [Node.walk] at hvisit
      rcases Walk.mem_visits_andThen hvisit with hfirst | hlater
      · split at hfirst
        next hskip =>
          obtain rfl := List.mem_singleton.1 hfirst
          exact .passed List.lookup_cons_self hskip
        next hskip =>
          split at hfirst
          · cases hfirst
          · obtain ⟨inside, hinside, rfl⟩ := List.mem_map.1 hfirst
            exact .inside List.lookup_cons_self (by simpa using hskip) (ihInside hinner hinside)
      · exact (ih hrest hlater).cons hname

theorem ne_cons_of_mem_walk {path : Path} {entries : List (Bytes × Node)} {visit : Visit}
    {name : Bytes} (hwf : areWellFormed entries = true) (hname : entries.lookup name = none)
    (hvisit : visit ∈ (Node.walk path entries).visits) (rest : Location) :
    visit.place ≠ name :: rest := by
  obtain ⟨first, more, hplace, hsome⟩ := (sees_of_mem_walk hwf hvisit).exists_cons
  intro hsame
  obtain ⟨rfl, -⟩ := List.cons.inj (hplace.symm.trans hsame)
  rw [hname] at hsome
  cases hsome

/-- A walk meets no place twice. -/
theorem nodup_walk {path : Path} {entries : List (Bytes × Node)}
    (hwf : areWellFormed entries = true) :
    ((Node.walk path entries).visits.map Visit.place).Nodup := by
  induction path, entries using Node.walk.induct with
  | case1 =>
      rw [Node.walk]
      exact List.nodup_nil
  | case2 path name content rest ih | case3 path name target rest ih =>
      obtain ⟨-, hname, -, hrest⟩ := areWellFormed_cons hwf
      rw [Node.walk]
      refine Walk.nodup_andThen (List.nodup_singleton _) (ih hrest) ?_
      intro visit hvisit later hlater
      obtain rfl := List.mem_singleton.1 hvisit
      exact (ne_cons_of_mem_walk hrest hname hlater []).symm
  | case4 path name full rest ih =>
      obtain ⟨-, -, -, hrest⟩ := areWellFormed_cons hwf
      rw [Node.walk]
      exact ih hrest
  | case5 path name entries rest ihInside ih =>
      obtain ⟨-, hname, hinner, hrest⟩ := areWellFormed_cons hwf
      rw [Node.walk]
      refine Walk.nodup_andThen ?_ (ih hrest) ?_
      · split
        · exact List.nodup_singleton _
        · split
          · exact List.nodup_nil
          · exact Walk.nodup_below name (ihInside hinner)
      · intro visit hvisit later hlater
        have hhead : ∃ more, visit.place = name :: more := by
          split at hvisit
          · obtain rfl := List.mem_singleton.1 hvisit
            exact ⟨[], rfl⟩
          · split at hvisit
            · cases hvisit
            · obtain ⟨inner, -, rfl⟩ := List.mem_map.1 hvisit
              exact ⟨inner.place, rfl⟩
        obtain ⟨more, hmore⟩ := hhead
        rw [hmore]
        exact (ne_cons_of_mem_walk hrest hname hlater more).symm

end Node

end LicenseStamp

import LicenseStamp.Proofs.Tree.WellFormed

/-! # The directories that a walk enters

A walk enters the directories below its start that can be reached through directories without a
skipped name. It breaks off at one of them whose path is too long to be listed. If there is
none, it misses nothing that is to be seen in them.
-/

namespace LicenseStamp

namespace Node

variable {entries inner rest : List (Bytes × Node)} {node found : Node} {name other : Bytes}
  {place : Location} {sight : Sight} {path : Path}

/-- The places of the directories that a walk of some entries enters, its start included. -/
inductive Entered : List (Bytes × Node) → Location → Prop where
  | start {entries : List (Bytes × Node)} : Entered entries []
  | down {entries inner : List (Bytes × Node)} {name : Bytes} {place : Location}
      (hentry : entries.lookup name = some (.dir inner))
      (hname : Filter.isSkippedDirName name = false) (onward : Entered inner place) :
      Entered entries (name :: place)

theorem lookup_cons_cases (h : ((name, node) :: rest).lookup other = some found) :
    (other = name ∧ node = found) ∨ rest.lookup other = some found := by
  rw [List.lookup_cons] at h
  cases hsame : other == name with
  | true =>
      rw [hsame] at h
      exact .inl ⟨eq_of_beq hsame, Option.some.inj h⟩
  | false =>
      rw [hsame] at h
      exact .inr h

/-- What is seen among entries is seen behind the first one, or it is the first one, or it lies
    in the directory that is the first one. -/
theorem Sees.uncons (h : Sees ((name, node) :: rest) place sight) :
    Sees rest place sight ∨ (place = [name] ∧ sight ≠ .passed ∧ sight.Shows node) ∨
      ∃ inner, node = .dir inner ∧
        ((Filter.isSkippedDirName name = true ∧ place = [name] ∧ sight = .passed) ∨
          Filter.isSkippedDirName name = false ∧ ∃ more, place = name :: more ∧
            Sees inner more sight) := by
  cases h with
  | file hentry =>
      rcases lookup_cons_cases hentry with ⟨rfl, rfl⟩ | hentry
      · exact .inr (.inl ⟨rfl, nofun, .file _⟩)
      · exact .inl (.file hentry)
  | link hentry =>
      rcases lookup_cons_cases hentry with ⟨rfl, rfl⟩ | hentry
      · exact .inr (.inl ⟨rfl, nofun, .link _⟩)
      · exact .inl (.link hentry)
  | passed hentry hskip =>
      rcases lookup_cons_cases hentry with ⟨rfl, rfl⟩ | hentry
      · exact .inr (.inr ⟨_, rfl, .inl ⟨hskip, rfl, rfl⟩⟩)
      · exact .inl (.passed hentry hskip)
  | inside hentry hskip onward =>
      rcases lookup_cons_cases hentry with ⟨rfl, rfl⟩ | hentry
      · exact .inr (.inr ⟨_, rfl, .inr ⟨hskip, _, rfl, onward⟩⟩)
      · exact .inl (.inside hentry hskip onward)

theorem Entered.uncons (h : Entered ((name, node) :: rest) place) :
    Entered rest place ∨ ∃ inner more, node = .dir inner ∧
      Filter.isSkippedDirName name = false ∧ place = name :: more ∧ Entered inner more := by
  cases h with
  | start => exact .inl .start
  | down hentry hskip onward =>
      rcases lookup_cons_cases hentry with ⟨rfl, rfl⟩ | hentry
      · exact .inr ⟨_, _, rfl, hskip, rfl, onward⟩
      · exact .inl (.down hentry hskip onward)

theorem Entered.cons (h : Entered rest place) (hname : rest.lookup name = none) :
    Entered ((name, node) :: rest) place := by
  cases h with
  | start => exact .start
  | down hentry hskip onward => exact .down (lookup_cons_of_some hname hentry) hskip onward

/-- Files and links are seen in the directories that are entered. -/
theorem sees_iff (hsight : sight ≠ .passed) :
    Sees entries place sight ↔ ∃ above name node, place = above ++ [name] ∧
      Entered entries above ∧ (Node.dir entries).get? (above ++ [name]) = some node ∧
      sight.Shows node := by
  constructor
  · intro h
    induction h with
    | @file _ name content hentry =>
        exact ⟨[], name, .file content, rfl, .start, by simp [get?, hentry], .file content⟩
    | @link _ name target hentry =>
        exact ⟨[], name, .link target, rfl, .start, by simp [get?, hentry], .link target⟩
    | passed => exact absurd rfl hsight
    | @inside _ _ first _ _ hentry hskip _ ih =>
        obtain ⟨above, name, node, rfl, hentered, hget, hshows⟩ := ih hsight
        refine ⟨first :: above, name, node, rfl, .down hentry hskip hentered, ?_, hshows⟩
        simpa only [List.cons_append, get?, hentry, Option.bind_some] using hget
  · rintro ⟨above, name, node, rfl, hentered, hget, hshows⟩
    induction hentered with
    | start =>
        obtain ⟨_, next, hentries, hlookup, hnode⟩ := get?_cons_eq_some_iff.1 hget
        obtain rfl := Node.dir.inj hentries
        obtain rfl := Option.some.inj hnode
        cases hshows with
        | file => exact .file hlookup
        | link => exact .link hlookup
        | passed => exact absurd rfl hsight
    | down hentry hskip _ ih =>
        refine .inside hentry hskip (ih ?_)
        simpa only [List.cons_append, get?, hentry, Option.bind_some] using hget

end Node

namespace Walk

variable {first second : Walk}

theorem failure_andThen_eq_none_iff :
    (first.andThen second).failure = none ↔ first.failure = none ∧ second.failure = none := by
  unfold andThen
  cases hfirst : first.failure <;> simp [hfirst]

theorem failure_andThen_eq_some {cause : WalkError}
    (h : (first.andThen second).failure = some cause) :
    first.failure = some cause ∨ second.failure = some cause := by
  unfold andThen at h
  split at h
  · exact .inl h
  · exact .inr h

theorem visits_andThen_of_success (h : first.failure = none) :
    (first.andThen second).visits = first.visits ++ second.visits := by
  simp only [andThen, h]

end Walk

namespace Node

variable {entries : List (Bytes × Node)} {place : Location} {sight : Sight} {path : Path}

/-- A walk that does not break off meets all that is to be seen. -/
theorem mem_walk_of_sees (hsees : Sees entries place sight)
    (hdone : (Node.walk path entries).failure = none) :
    ⟨place, sight⟩ ∈ (Node.walk path entries).visits := by
  induction path, entries using Node.walk.induct generalizing place sight with
  | case1 =>
      obtain ⟨name, rest, -, hsome⟩ := hsees.exists_cons
      cases hsome
  | case2 path name content rest ih | case3 path name target rest ih =>
      rw [Node.walk, Walk.failure_andThen_eq_none_iff] at hdone
      rw [Node.walk, Walk.visits_andThen_of_success hdone.1, List.mem_append]
      rcases hsees.uncons with hrest | ⟨rfl, -, hshows⟩ | ⟨inner, hnode, -⟩
      · exact .inr (ih hrest hdone.2)
      · cases hshows
        exact .inl (List.mem_singleton_self _)
      · cases hnode
  | case4 path name full rest ih =>
      rw [Node.walk] at hdone ⊢
      rcases hsees.uncons with hrest | ⟨-, -, hshows⟩ | ⟨inner, hnode, -⟩
      · exact ih hrest hdone
      · cases hshows
      · cases hnode
  | case5 path name entries rest ihInside ih =>
      rw [Node.walk, Walk.failure_andThen_eq_none_iff] at hdone
      rw [Node.walk, Walk.visits_andThen_of_success hdone.1, List.mem_append]
      rcases hsees.uncons with hrest | ⟨-, hne, hshows⟩ | ⟨inner, hnode, hdir⟩
      · exact .inr (ih hrest hdone.2)
      · cases hshows
        exact absurd rfl hne
      -- the entry is the directory itself: it is passed by, or the walk goes on inside
      · obtain rfl := Node.dir.inj hnode
        left
        rcases hdir with ⟨hskip, rfl, rfl⟩ | ⟨hskip, more, rfl, hinside⟩
        · rw [if_pos hskip]
          exact List.mem_singleton_self _
        · have hfirst := hdone.1
          rw [hskip, if_neg Bool.false_ne_true] at hfirst ⊢
          split at hfirst
          · cases hfirst
          next hlong =>
            rw [if_neg hlong]
            exact List.mem_map.2 ⟨_, ihInside hinside hfirst, rfl⟩

/-- A walk that does not break off can list every directory that it enters. -/
theorem length_le_of_entered (hentered : Entered entries place) (hne : place ≠ [])
    (hdone : (Node.walk path entries).failure = none) :
    (path.descend place).bytes.length ≤ Disk.maxPath := by
  induction path, entries using Node.walk.induct generalizing place with
  | case1 =>
      cases hentered with
      | start => exact absurd rfl hne
      | down hentry => cases hentry
  | case2 path name content rest ih | case3 path name target rest ih =>
      rw [Node.walk, Walk.failure_andThen_eq_none_iff] at hdone
      rcases hentered.uncons with hrest | ⟨inner, more, hnode, -⟩
      · exact ih hrest hne hdone.2
      · cases hnode
  | case4 path name full rest ih =>
      rw [Node.walk] at hdone
      rcases hentered.uncons with hrest | ⟨inner, more, hnode, -⟩
      · exact ih hrest hne hdone
      · cases hnode
  | case5 path name entries rest ihInside ih =>
      rw [Node.walk, Walk.failure_andThen_eq_none_iff] at hdone
      rcases hentered.uncons with hrest | ⟨inner, more, hnode, hskip, rfl, hinside⟩
      · exact ih hrest hne hdone.2
      · obtain rfl := Node.dir.inj hnode
        have hfirst := hdone.1
        rw [hskip, if_neg Bool.false_ne_true] at hfirst
        split at hfirst
        · cases hfirst
        next hlong =>
          by_cases hmore : more = []
          · rw [hmore]
            exact Nat.le_of_not_lt hlong
          · exact ihInside hinside hmore hfirst

/-- A walk breaks off at a directory that it enters and cannot list. -/
theorem exists_entered_of_failure {cause : WalkError} (hwf : areWellFormed entries = true)
    (h : (Node.walk path entries).failure = some cause) :
    ∃ place, Entered entries place ∧ Disk.maxPath < (path.descend place).bytes.length ∧
      cause = ⟨path.descend place, .nameTooLong⟩ := by
  induction path, entries using Node.walk.induct with
  | case1 =>
      rw [Node.walk] at h
      cases h
  | case2 path name content rest ih | case3 path name target rest ih =>
      obtain ⟨-, hname, -, hrest⟩ := areWellFormed_cons hwf
      rw [Node.walk] at h
      rcases Walk.failure_andThen_eq_some h with hfirst | hlater
      · cases hfirst
      · obtain ⟨place, hentered, hlong⟩ := ih hrest hlater
        exact ⟨place, hentered.cons hname, hlong⟩
  | case4 path name full rest ih =>
      obtain ⟨-, hname, -, hrest⟩ := areWellFormed_cons hwf
      rw [Node.walk] at h
      obtain ⟨place, hentered, hlong⟩ := ih hrest h
      exact ⟨place, hentered.cons hname, hlong⟩
  | case5 path name entries rest ihInside ih =>
      obtain ⟨-, hname, hinner, hrest⟩ := areWellFormed_cons hwf
      rw [Node.walk] at h
      rcases Walk.failure_andThen_eq_some h with hfirst | hlater
      · split at hfirst
        · cases hfirst
        next hskip =>
          have hskip : Filter.isSkippedDirName name = false := by simpa using hskip
          split at hfirst
          next hlong =>
            obtain rfl := Option.some.inj hfirst
            exact ⟨[name], .down List.lookup_cons_self hskip .start, hlong, rfl⟩
          · obtain ⟨place, hentered, hlong, rfl⟩ := ihInside hinner hfirst
            exact ⟨name :: place, .down List.lookup_cons_self hskip hentered, hlong, rfl⟩
      · obtain ⟨place, hentered, hlong⟩ := ih hrest hlater
        exact ⟨place, hentered.cons hname, hlong⟩

end Node

end LicenseStamp

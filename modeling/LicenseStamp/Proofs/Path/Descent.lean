import LicenseStamp.Selection.Eligibility
import LicenseStamp.Tree.Walk

/-! # Paths of places

A walk spells the place of an entry below the path of its root. Such a path takes the steps
of the root and then enters the names of the place one by one, whatever slashes the root
ends in, and its last component is the last name.
-/

namespace LicenseStamp

/-- Whether bytes can be the name of a directory entry. -/
def Bytes.isName (name : Bytes) : Bool :=
  !name.isEmpty && !name.contains Path.slash && name != [Path.dot] && name != [Path.dot, Path.dot]

namespace Bytes

variable {name : Bytes}

theorem ne_nil_of_isName (h : name.isName = true) : name ≠ [] := by
  rintro rfl
  cases h

theorem slash_not_mem_of_isName (h : name.isName = true) : Path.slash ∉ name := by
  simp only [isName, Bool.and_eq_true, Bool.not_eq_true'] at h
  simpa using h.1.1.2

theorem ne_dot_of_isName (h : name.isName = true) : name ≠ [Path.dot] := by
  rintro rfl
  cases h

theorem ne_dotDot_of_isName (h : name.isName = true) : name ≠ [Path.dot, Path.dot] := by
  rintro rfl
  cases h

end Bytes

theorem Step.ofPiece_of_isName {name : Bytes} (h : name.isName = true) :
    Step.ofPiece name = .enter name := by
  have hne : name.isEmpty = false := by simpa using Bytes.ne_nil_of_isName h
  simp only [Step.ofPiece, hne, Bytes.ne_dot_of_isName h, Bytes.ne_dotDot_of_isName h,
    Bool.false_eq_true, if_false]

namespace Path

theorem slash_not_mem_of_mem_splitOn {bytes piece : Bytes}
    (h : piece ∈ bytes.splitOn slash) : slash ∉ piece := by
  induction bytes generalizing piece with
  | nil =>
      rw [List.splitOn_nil] at h
      rw [List.mem_singleton.1 h]
      exact List.not_mem_nil
  | cons byte rest ih =>
      rw [List.splitOn_cons_eq_if_modifyHead] at h
      split at h
      · rcases List.mem_cons.1 h with rfl | h
        · exact List.not_mem_nil
        · exact ih h
      next hbyte =>
        cases hrest : rest.splitOn slash with
        | nil => exact absurd hrest (List.splitOn_ne_nil slash rest)
        | cons first more =>
            rw [hrest] at h ih
            rcases List.mem_cons.1 h with rfl | h
            · intro hslash
              rcases List.mem_cons.1 hslash with rfl | hslash
              · exact hbyte BEq.rfl
              · exact ih List.mem_cons_self hslash
            · exact ih (List.mem_cons_of_mem _ h)

theorem mem_splitOn_of_mem_split {path : Path} {piece : Bytes} (h : piece ∈ path.split.2) :
    piece ∈ path.bytes.splitOn slash := by
  unfold split at h
  split at h
  next hparts => rw [hparts]; exact List.mem_cons_of_mem _ h
  next hparts =>
    rw [hparts]
    split at h
    · exact List.mem_cons_of_mem _ h
    · exact h
  · cases h

theorem slash_not_mem_of_mem_split {path : Path} {piece : Bytes} (h : piece ∈ path.split.2) :
    slash ∉ piece :=
  slash_not_mem_of_mem_splitOn (mem_splitOn_of_mem_split h)

/-- The anchor and the pieces of a path whose last slash is followed by more. -/
def stem (front : Bytes) : Anchor × List Bytes :=
  match front.splitOn slash with
  | [] :: rest => (.root, rest)
  | first :: rest => if first = [dot] then (.here, rest) else (.bare, first :: rest)
  | [] => (.bare, [])

theorem split_append_slash (front tail : Bytes) :
    (Path.mk (front ++ slash :: tail)).split =
      ((stem front).1, (stem front).2 ++ tail.splitOn slash) := by
  obtain ⟨next, more, htail⟩ := List.exists_cons_of_ne_nil (List.splitOn_ne_nil slash tail)
  simp only [split, stem, List.splitOn_append_cons_self, htail]
  cases hfront : front.splitOn slash with
  | nil => exact absurd hfront (List.splitOn_ne_nil slash front)
  | cons first rest =>
      cases first with
      | nil => cases rest <;> rfl
      | cons byte bytes =>
          simp only [List.cons_append]
          split <;> rfl

theorem split_slash (front : Bytes) {last : Bytes} (h : slash ∉ last) :
    (Path.mk (front ++ slash :: last)).split = ((stem front).1, (stem front).2 ++ [last]) := by
  rw [split_append_slash, List.splitOn_eq_singleton h]

theorem split_eq_stem {path : Path} (h : path.bytes ≠ []) : path.split = stem path.bytes := by
  simp only [split, stem]
  cases hparts : path.bytes.splitOn slash with
  | nil => exact absurd hparts (List.splitOn_ne_nil slash path.bytes)
  | cons first rest =>
      cases first with
      | cons byte bytes => rfl
      | nil =>
          cases rest with
          | cons => rfl
          | nil =>
              have hbytes : [slash].intercalate (path.bytes.splitOn slash) = path.bytes :=
                List.intercalate_splitOn slash
              rw [hparts] at hbytes
              exact absurd hbytes.symm h

theorem steps_slash (front : Bytes) {last : Bytes} (h : slash ∉ last) :
    (Path.mk (front ++ slash :: last)).steps =
      (stem front).2.map Step.ofPiece ++ [Step.ofPiece last] := by
  simp only [steps, split_slash front h, List.map_append, List.map_cons, List.map_nil]

theorem isAbsolute_of_slash_not_mem {bytes : Bytes} (h : slash ∉ bytes) :
    (Path.mk bytes).isAbsolute = false := by
  rw [isAbsolute, beq_eq_false_iff_ne]
  exact fun hhead => h (List.mem_of_mem_head? hhead)

theorem bytes_join {base path : Path} (hbase : base.bytes ≠ [])
    (hrelative : path.isAbsolute = false) :
    (base.join path).bytes =
      base.bytes ++ if base.bytes.getLast? = some slash then path.bytes else slash :: path.bytes := by
  have hempty : base.bytes.isEmpty = false := by simpa using hbase
  simp only [join, hrelative, hempty, Bool.or_false, Bool.false_eq_true, if_false]
  split <;> rfl

theorem bytes_child {base : Path} (hbase : base.bytes ≠ []) {name : Bytes}
    (hname : name.isName = true) :
    (base.child name).bytes =
      base.bytes ++ if base.bytes.getLast? = some slash then name else slash :: name :=
  bytes_join hbase (isAbsolute_of_slash_not_mem (Bytes.slash_not_mem_of_isName hname))

/-- A path that ends in no slash, so that entries are spelled behind a new one. -/
def IsOpen (path : Path) : Prop := path.bytes ≠ [] ∧ path.bytes.getLast? ≠ some slash

theorem isOpen_child {base : Path} (hbase : base.bytes ≠ []) {name : Bytes}
    (hname : name.isName = true) : (base.child name).IsOpen := by
  obtain ⟨last, hlast⟩ : ∃ last, name.getLast? = some last :=
    Option.isSome_iff_exists.1 (by simpa using Bytes.ne_nil_of_isName hname)
  have hslash : last ≠ slash := fun same =>
    Bytes.slash_not_mem_of_isName hname (same ▸ List.mem_of_getLast? hlast)
  constructor
  · rw [bytes_child hbase hname]
    exact List.append_ne_nil_of_left_ne_nil hbase _
  · rw [bytes_child hbase hname, List.getLast?_append]
    split <;> simp [List.getLast?_cons, hlast, hslash]

theorem child_of_isOpen {base : Path} (hbase : base.IsOpen) {name : Bytes}
    (hname : name.isName = true) : base.child name = ⟨base.bytes ++ slash :: name⟩ := by
  have hbytes := bytes_child hbase.1 hname
  rw [if_neg hbase.2] at hbytes
  exact congrArg Path.mk hbytes

theorem child_of_slash {base : Path} {front : Bytes} (hbase : base.bytes = front ++ [slash])
    {name : Bytes} (hname : name.isName = true) : base.child name = ⟨front ++ slash :: name⟩ := by
  have hne : base.bytes ≠ [] := by simp [hbase]
  have hbytes := bytes_child hne hname
  rw [hbase, if_pos List.getLast?_concat, List.append_assoc] at hbytes
  exact congrArg Path.mk hbytes

theorem fileName?_child {base : Path} (hbase : base.bytes ≠ []) {name : Bytes}
    (hname : name.isName = true) : (base.child name).fileName? = some name := by
  obtain ⟨front, hchild⟩ : ∃ front, base.child name = ⟨front ++ slash :: name⟩ := by
    by_cases hlast : base.bytes.getLast? = some slash
    · obtain ⟨front, hfront⟩ := List.getLast?_eq_some_iff.1 hlast
      exact ⟨front, child_of_slash hfront hname⟩
    · exact ⟨base.bytes, child_of_isOpen ⟨hbase, hlast⟩ hname⟩
  have hvoid : isVoid name = false := by
    simp [isVoid, Bytes.ne_nil_of_isName hname, Bytes.ne_dot_of_isName hname]
  simp only [fileName?, components, hchild, split_slash _ (Bytes.slash_not_mem_of_isName hname),
    List.filter_append, List.filter_cons, hvoid, List.filter_nil, Bool.not_false, if_true,
    List.map_append, List.map_cons, List.map_nil, ofPiece, Bytes.ne_dotDot_of_isName hname,
    if_false, ← List.append_assoc, List.getLast?_concat]

theorem steps_child_of_isOpen {base : Path} (hbase : base.IsOpen) {name : Bytes}
    (hname : name.isName = true) : (base.child name).steps = base.steps ++ [.enter name] := by
  rw [child_of_isOpen hbase hname, steps_slash _ (Bytes.slash_not_mem_of_isName hname),
    Step.ofPiece_of_isName hname, steps, split_eq_stem hbase.1]

theorem steps_descend_of_isOpen {base : Path} (hbase : base.IsOpen) {place : Location}
    (hplace : ∀ name ∈ place, Bytes.isName name = true) :
    (base.descend place).steps = base.steps ++ place.map .enter := by
  induction place generalizing base with
  | nil => simp [descend]
  | cons name rest ih =>
      have hname := hplace name List.mem_cons_self
      have hrest := ih (isOpen_child hbase.1 hname) fun other h =>
        hplace other (List.mem_cons_of_mem _ h)
      rw [steps_child_of_isOpen hbase hname, List.append_assoc] at hrest
      exact hrest

/-- The path of a place takes the steps of its base, without a last slash, and then enters
    the names of the place. -/
theorem exists_steps_descend {base : Path} (hbase : base.bytes ≠ []) :
    ∃ front, (base.steps = front ∨ base.steps = front ++ [.slash]) ∧
      ∀ place : Location, place ≠ [] → (∀ name ∈ place, Bytes.isName name = true) →
        (base.descend place).steps = front ++ place.map .enter := by
  by_cases hlast : base.bytes.getLast? = some slash
  · obtain ⟨front, hfront⟩ := List.getLast?_eq_some_iff.1 hlast
    refine ⟨(stem front).2.map Step.ofPiece, .inr ?_, ?_⟩
    · have hsteps := steps_slash front (List.not_mem_nil (a := slash))
      rwa [← hfront] at hsteps
    · intro place hne hplace
      cases place with
      | nil => exact absurd rfl hne
      | cons name rest =>
          have hname := hplace name List.mem_cons_self
          have hchild := child_of_slash hfront hname
          have hrest := steps_descend_of_isOpen (isOpen_child hbase hname) fun other h =>
            hplace other (List.mem_cons_of_mem _ h)
          rw [hchild, steps_slash _ (Bytes.slash_not_mem_of_isName hname),
            Step.ofPiece_of_isName hname, List.append_assoc, ← hchild] at hrest
          exact hrest
  · exact ⟨base.steps, .inl rfl, fun place _ hplace => steps_descend_of_isOpen ⟨hbase, hlast⟩ hplace⟩

/-- The path of a place is spelled behind the path of its base. -/
theorem exists_bytes_descend {base : Path} (hbase : base.bytes ≠ []) {place : Location}
    (hplace : ∀ name ∈ place, Bytes.isName name = true) :
    ∃ tail, (base.descend place).bytes = base.bytes ++ tail ∧ (tail = [] ↔ place = []) := by
  induction place generalizing base with
  | nil => exact ⟨[], (List.append_nil _).symm, by simp⟩
  | cons name rest ih =>
      have hname := hplace name List.mem_cons_self
      obtain ⟨tail, htail, _⟩ := ih (isOpen_child hbase hname).1 fun other h =>
        hplace other (List.mem_cons_of_mem _ h)
      rw [bytes_child hbase hname, List.append_assoc] at htail
      refine ⟨_, htail, ?_⟩
      have hne := Bytes.ne_nil_of_isName hname
      split <;> simp [hne]

/-- Different places have different paths. -/
theorem descend_inj {base : Path} (hbase : base.bytes ≠ []) {first second : Location}
    (hfirst : ∀ name ∈ first, Bytes.isName name = true)
    (hsecond : ∀ name ∈ second, Bytes.isName name = true)
    (h : base.descend first = base.descend second) : first = second := by
  obtain ⟨tail, htail, hnil⟩ := exists_bytes_descend hbase hfirst
  obtain ⟨tail', htail', hnil'⟩ := exists_bytes_descend hbase hsecond
  have hsame : tail = tail' := by
    rw [h, htail'] at htail
    exact (List.append_cancel_left htail).symm
  by_cases hne : first = []
  · rw [hne, eq_comm, ← hnil', ← hsame, hnil]
    exact hne
  · have hne' : second ≠ [] := fun hempty => hne (hnil.1 (hsame ▸ hnil'.2 hempty))
    obtain ⟨front, _, hsteps⟩ := exists_steps_descend hbase
    have henter := hsteps first hne hfirst
    rw [h, hsteps second hne' hsecond] at henter
    exact (List.map_inj_right fun _ _ => Step.enter.inj).1 (List.append_cancel_left henter).symm

theorem isAbsolute_descend {base : Path} (hbase : base.bytes ≠ []) {place : Location}
    (hplace : ∀ name ∈ place, Bytes.isName name = true) :
    (base.descend place).isAbsolute = base.isAbsolute := by
  obtain ⟨tail, htail, _⟩ := exists_bytes_descend hbase hplace
  obtain ⟨byte, bytes, hbytes⟩ := List.exists_cons_of_ne_nil hbase
  simp only [isAbsolute, htail, hbytes, List.cons_append, List.head?_cons]

/-- The last name of a place is the file name of its path. -/
theorem fileName?_descend {base : Path} (hbase : base.bytes ≠ []) {place : Location}
    {name : Bytes} (hplace : ∀ name ∈ place, Bytes.isName name = true)
    (hlast : place.getLast? = some name) : (base.descend place).fileName? = some name := by
  induction place generalizing base with
  | nil => cases hlast
  | cons first rest ih =>
      have hfirst := hplace first List.mem_cons_self
      have hrest : ∀ other ∈ rest, Bytes.isName other = true := fun other h =>
        hplace other (List.mem_cons_of_mem _ h)
      cases rest with
      | cons next more => exact ih (isOpen_child hbase hfirst).1 hrest hlast
      | nil =>
          obtain rfl : first = name := by simpa using hlast
          exact fileName?_child hbase hfirst

end Path

end LicenseStamp

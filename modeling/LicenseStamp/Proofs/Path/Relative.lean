import LicenseStamp.Path.Relative
import LicenseStamp.Proofs.Path.Descent

/-! # Places seen from their root

However a root is spelled, what lies at a place below it is seen from it by the names of the
place alone, so that different places are seen by different components.
-/

namespace LicenseStamp

theorem Bytes.isVoid_of_isName {name : Bytes} (h : name.isName = true) :
    Path.isVoid name = false := by
  simp [Path.isVoid, Bytes.ne_nil_of_isName h, Bytes.ne_dot_of_isName h]

theorem Path.ofPiece_of_isName {name : Bytes} (h : name.isName = true) :
    Path.ofPiece name = .name name := if_neg (Bytes.ne_dotDot_of_isName h)

namespace Path

variable {base : Path} {place other : Location} {name : Bytes}

theorem split_child_of_isOpen (hbase : base.IsOpen) (hname : name.isName = true) :
    (base.child name).split = (base.split.1, base.split.2 ++ [name]) := by
  rw [child_of_isOpen hbase hname, split_slash _ (Bytes.slash_not_mem_of_isName hname),
    split_eq_stem hbase.1]

theorem split_descend_of_isOpen (hbase : base.IsOpen)
    (hplace : ∀ name ∈ place, Bytes.isName name = true) :
    (base.descend place).split = (base.split.1, base.split.2 ++ place) := by
  induction place generalizing base with
  | nil => simp [descend]
  | cons name rest ih =>
      have hname := hplace name List.mem_cons_self
      have hrest := ih (isOpen_child hbase.1 hname) fun other h =>
        hplace other (List.mem_cons_of_mem _ h)
      rw [split_child_of_isOpen hbase hname, List.append_assoc] at hrest
      exact hrest

/-- The path of a place has the anchor of its base, the pieces of the base up to void ones, and
    then the names of the place. -/
theorem exists_split_descend (hbase : base.bytes ≠ [])
    (hplace : ∀ name ∈ place, Bytes.isName name = true) :
    ∃ pieces, (base.descend place).split = (base.split.1, pieces ++ place) ∧
      (pieces.filter fun piece => !isVoid piece) =
        base.split.2.filter fun piece => !isVoid piece := by
  cases place with
  | nil => exact ⟨base.split.2, by simp [descend], rfl⟩
  | cons name rest =>
      have hname := hplace name List.mem_cons_self
      have hrest : ∀ other ∈ rest, Bytes.isName other = true := fun other h =>
        hplace other (List.mem_cons_of_mem _ h)
      have hdescend := split_descend_of_isOpen (isOpen_child hbase hname) hrest
      -- behind a slash at the end of the base the first name takes the place of a void piece
      by_cases hlast : base.bytes.getLast? = some slash
      · obtain ⟨front, hfront⟩ := List.getLast?_eq_some_iff.1 hlast
        have hsplit := split_slash front (List.not_mem_nil (a := slash))
        rw [← hfront] at hsplit
        have hchild : (base.child name).split = ((stem front).1, (stem front).2 ++ [name]) := by
          rw [child_of_slash hfront hname, split_slash _ (Bytes.slash_not_mem_of_isName hname)]
        rw [hchild, List.append_assoc] at hdescend
        refine ⟨(stem front).2, ?_, ?_⟩
        · rw [hsplit]
          exact hdescend
        · rw [hsplit, List.filter_append]
          simp [isVoid]
      · exact ⟨base.split.2, split_descend_of_isOpen ⟨hbase, hlast⟩ hplace, rfl⟩

/-- Taking the pieces of a base from the front of a path leaves what is below it, and perhaps
    void pieces before that. -/
theorem exists_dropPieces (pieces place : List Bytes) :
    ∃ voids, (∀ piece ∈ voids, isVoid piece = true) ∧
      dropPieces (pieces ++ place) (pieces.filter fun piece => !isVoid piece) =
        some (voids ++ place) := by
  induction pieces with
  | nil => exact ⟨[], fun _ => nofun, by cases place <;> rfl⟩
  | cons piece rest ih =>
      obtain ⟨voids, hvoids, hdrop⟩ := ih
      cases hpiece : isVoid piece with
      | false =>
          refine ⟨voids, hvoids, ?_⟩
          simp only [List.cons_append, List.filter_cons, hpiece, Bool.not_false, if_true, dropPieces,
            Bool.false_eq_true, if_false, hdrop]
      | true =>
          simp only [List.cons_append, List.filter_cons, hpiece, Bool.not_true, Bool.false_eq_true,
            if_false]
          cases hwanted : rest.filter fun piece => !isVoid piece with
          | nil =>
              refine ⟨piece :: rest, ?_, rfl⟩
              rw [List.filter_eq_nil_iff] at hwanted
              simpa [hpiece] using hwanted
          | cons wanted more =>
              rw [hwanted] at hdrop
              exact ⟨voids, hvoids, by simp only [dropPieces, hpiece, if_true, hdrop]⟩

theorem dropWhile_isVoid_append {voids : List Bytes} (hvoids : ∀ piece ∈ voids, isVoid piece = true)
    (hplace : ∀ name ∈ place, Bytes.isName name = true) :
    (voids ++ place).dropWhile isVoid = place := by
  rw [List.dropWhile_append_of_pos hvoids]
  cases place with
  | nil => rfl
  | cons name rest =>
      have hname := Bytes.isVoid_of_isName (hplace name List.mem_cons_self)
      exact List.dropWhile_cons_of_neg (by simp [hname])

theorem dropVoidEnd_of_isName (hplace : ∀ name ∈ place, Bytes.isName name = true) :
    dropVoidEnd place = place := by
  have hreverse := @dropWhile_isVoid_append place.reverse [] (by simp) (by simpa using hplace)
  rw [List.nil_append] at hreverse
  rw [dropVoidEnd, hreverse, List.reverse_reverse]

theorem components_isEmpty_eq_false (hbase : base.bytes ≠ []) :
    base.components.isEmpty = false := by
  rw [components, split_eq_stem hbase, stem]
  cases hparts : base.bytes.splitOn slash with
  | nil => exact absurd hparts (List.splitOn_ne_nil slash base.bytes)
  | cons first rest =>
      cases first with
      | nil => rfl
      | cons byte bytes =>
          by_cases hdot : byte :: bytes = [dot]
          · simp only [hdot, if_true]
            rfl
          · simp [hdot, isVoid]

/-- What is left of the path of a place below its root are the names of the place. -/
theorem below?_descend (hbase : base.bytes ≠ [])
    (hplace : ∀ name ∈ place, Bytes.isName name = true) :
    (base.descend place).below? base = some (.ofPieces .bare place) := by
  obtain ⟨pieces, hsplit, hpieces⟩ := exists_split_descend hbase hplace
  obtain ⟨voids, hvoids, hdrop⟩ := exists_dropPieces pieces place
  simp only [below?, components_isEmpty_eq_false hbase, hsplit, Bool.false_eq_true, if_false,
    if_true, ← hpieces, hdrop, Option.map_some, dropWhile_isVoid_append hvoids hplace,
    dropVoidEnd_of_isName hplace]

/-- A place below a root is seen from it by its names. -/
theorem relativeTo_descend (hbase : base.bytes ≠ [])
    (hplace : ∀ name ∈ place, Bytes.isName name = true) :
    (base.descend place).relativeTo base = .ofPieces .bare place := by
  rw [relativeTo, below?_descend hbase hplace]

theorem joinPieces_eq_intercalate (pieces : List Bytes) :
    joinPieces pieces = [slash].intercalate pieces := by
  fun_induction joinPieces pieces with
  | case1 => rfl
  | case2 piece => simp [List.intercalate]
  | case3 piece next rest ih => rw [ih]; simp [List.intercalate]

theorem joinPieces_concat {pieces : List Bytes} (hne : pieces ≠ []) (last : Bytes) :
    joinPieces (pieces ++ [last]) = joinPieces pieces ++ slash :: last := by
  fun_induction joinPieces pieces with
  | case1 => exact absurd rfl hne
  | case2 piece => rfl
  | case3 piece next rest ih =>
      have hrest := ih (List.cons_ne_nil _ _)
      simp only [List.cons_append, joinPieces, List.append_assoc] at hrest ⊢
      rw [hrest]

/-- A piece that is one component of each path that it stands in. -/
def IsPlain (piece : Bytes) : Prop := slash ∉ piece ∧ isVoid piece = false

theorem isPlain_of_isName (hname : name.isName = true) : IsPlain name :=
  ⟨Bytes.slash_not_mem_of_isName hname, Bytes.isVoid_of_isName hname⟩

/-- Pieces without slashes, of which the first one is not void, are the pieces of the path that they
    spell. -/
theorem split_ofPieces_cons {first : Bytes} {rest : List Bytes}
    (hslash : ∀ piece ∈ first :: rest, slash ∉ piece) (hvoid : isVoid first = false) :
    (ofPieces .bare (first :: rest)).split = (.bare, first :: rest) := by
  have hparts : (joinPieces (first :: rest)).splitOn slash = first :: rest := by
    rw [joinPieces_eq_intercalate]
    exact List.splitOn_intercalate slash hslash (List.cons_ne_nil _ _)
  have hnil : first ≠ [] := by
    rintro rfl
    cases hvoid
  have hdot : first ≠ [dot] := by
    rintro rfl
    cases hvoid
  obtain ⟨byte, bytes, rfl⟩ := List.exists_cons_of_ne_nil hnil
  simp only [split, ofPieces, hparts, if_neg hdot]

/-- Plain pieces are the pieces of the path that they spell. -/
theorem split_ofPieces {pieces : List Bytes} (hplain : ∀ piece ∈ pieces, IsPlain piece)
    (hne : pieces ≠ []) : (ofPieces .bare pieces).split = (.bare, pieces) := by
  obtain ⟨first, rest, rfl⟩ := List.exists_cons_of_ne_nil hne
  exact split_ofPieces_cons (fun piece h => (hplain piece h).1) (hplain first List.mem_cons_self).2

/-- Plain pieces are the components of the path that they spell. -/
theorem components_ofPieces_of_isPlain {pieces : List Bytes}
    (hplain : ∀ piece ∈ pieces, IsPlain piece) :
    (ofPieces .bare pieces).components = pieces.map ofPiece := by
  cases pieces with
  | nil => rfl
  | cons first rest =>
      have hkept : (first :: rest).filter (fun piece => !isVoid piece) = first :: rest := by
        rw [List.filter_eq_self]
        intro piece h
        rw [(hplain piece h).2]
        rfl
      rw [components, split_ofPieces hplain (List.cons_ne_nil _ _)]
      simp only [hkept, Anchor.components, List.nil_append]

/-- The names of a place are the components of the path that they spell. -/
theorem components_ofPieces (hplace : ∀ name ∈ place, Bytes.isName name = true) :
    (ofPieces .bare place).components = place.map .name := by
  rw [components_ofPieces_of_isPlain fun name h => isPlain_of_isName (hplace name h)]
  exact List.map_congr_left fun name h => ofPiece_of_isName (hplace name h)

/-- Different places are seen by different components. -/
theorem eq_of_components_relativeTo (hbase : base.bytes ≠ [])
    (hplace : ∀ name ∈ place, Bytes.isName name = true)
    (hother : ∀ name ∈ other, Bytes.isName name = true)
    (h : ((base.descend place).relativeTo base).components =
      ((base.descend other).relativeTo base).components) : place = other := by
  rw [relativeTo_descend hbase hplace, relativeTo_descend hbase hother, components_ofPieces hplace,
    components_ofPieces hother] at h
  exact (List.map_inj_right fun _ _ => Component.name.inj).1 h

end Path

end LicenseStamp

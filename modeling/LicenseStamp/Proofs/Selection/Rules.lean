import LicenseStamp.Proofs.Path.Relative

/-! # What the skip rules look at

The skip rules look at two parts of a path: its last name, and the names above the last one, of
the whole path or of what is left of it below the root.
-/

namespace LicenseStamp

namespace Path

variable {pieces : List Bytes} {path other : Path}

theorem dropWhile_isVoid_of_isPlain (hplain : ∀ piece ∈ pieces, IsPlain piece) :
    pieces.dropWhile isVoid = pieces := by
  cases pieces with
  | nil => rfl
  | cons first rest =>
      have hfirst := (hplain first List.mem_cons_self).2
      exact List.dropWhile_cons_of_neg (by simp [hfirst])

/-- Plain pieces without the last one are the parent of the path that they spell. -/
theorem parent?_ofPieces (hplain : ∀ piece ∈ pieces, IsPlain piece) :
    (ofPieces .bare pieces).parent?.getD ⟨[]⟩ = ofPieces .bare pieces.dropLast := by
  rcases List.eq_nil_or_concat pieces with rfl | ⟨above, last, rfl⟩
  · rfl
  · rw [List.concat_eq_append] at hplain ⊢
    have habove : ∀ piece ∈ above.reverse, IsPlain piece := fun piece h =>
      hplain piece (List.mem_append_left _ (List.mem_reverse.1 h))
    have hall := List.forall_mem_cons.2 ⟨hplain last (by simp), habove⟩
    rw [parent?, split_ofPieces hplain (by simp), List.dropLast_concat]
    simp only [List.reverse_append, List.reverse_singleton, List.singleton_append,
      dropWhile_isVoid_of_isPlain hall, dropWhile_isVoid_of_isPlain habove, List.reverse_reverse,
      Option.getD_some]

theorem style?_of_fileName? (h : path.fileName? = other.fileName?) : path.style? = other.style? := by
  rw [style?, style?, extension?, extension?, h]

end Path

namespace Filter

variable {ε : Type} {root path : Path} {place : Location} {pieces : List Bytes}

/-- A step up is no directory of a skipped name. -/
theorem isSkippedComponent_ofPiece (piece : Bytes) :
    isSkippedComponent (Path.ofPiece piece) = isSkippedDirName piece := by
  have hup : isSkippedDirName [Path.dot, Path.dot] = false := rfl
  unfold Path.ofPiece
  split
  next hpiece => rw [hpiece, hup, isSkippedComponent]
  · rfl

theorem isInSkippedDir_of_pieces (hplain : ∀ piece ∈ pieces, Path.IsPlain piece)
    (hseen : (path.below? root).getD path = .ofPieces .bare pieces) :
    isInSkippedDir root path = pieces.dropLast.any isSkippedDirName := by
  have habove : ∀ piece ∈ pieces.dropLast, Path.IsPlain piece :=
    fun piece h => hplain piece (List.dropLast_subset _ h)
  simp only [isInSkippedDir, hseen, Path.parent?_ofPieces hplain,
    Path.components_ofPieces_of_isPlain habove, List.any_map]
  exact congrArg (List.any pieces.dropLast) (funext isSkippedComponent_ofPiece)

/-- However the root is spelled, a place below it is judged by the names above its last one. -/
theorem isInSkippedDir_descend (hroot : root.bytes ≠ [])
    (hplace : ∀ name ∈ place, Bytes.isName name = true) :
    isInSkippedDir root (root.descend place) = place.dropLast.any isSkippedDirName := by
  apply isInSkippedDir_of_pieces fun name h => Path.isPlain_of_isName (hplace name h)
  rw [Path.below?_descend hroot hplace, Option.getD_some]

theorem judge_skipDir_eq_pass_iff :
    (skipDir root : Filter ε).judge path = .ok .pass ↔ isInSkippedDir root path = false := by
  cases h : isInSkippedDir root path with
  | true =>
      simp only [skipDir, judge, h, if_true]
      constructor
      · intro hpass
        cases hpass
      · intro hfalse
        cases hfalse
  | false => simp only [skipDir, judge, h, Bool.false_eq_true, if_false]

end Filter

namespace Eligibility

variable {root path : Path}

/-- Skipped names come first, then skipped directories, and then the extension. -/
theorem classify_eq (root path : Path) :
    classify root path =
      if path.fileName?.any Filter.isSkippedFileName then .rejected "Skip-listed file".toList
      else if Filter.isInSkippedDir root path then .rejected "Inside skip-listed directory".toList
      else
        match path.style? with
        | some style => .candidate style
        | none => .rejected "Unsupported extension".toList := by
  simp only [classify, rules, Filter.judge, Filter.judgeAll, Filter.skipFile, Filter.skipDir]
  cases path.fileName?.any Filter.isSkippedFileName with
  | true => rfl
  | false => cases Filter.isInSkippedDir root path <;> rfl

end Eligibility

end LicenseStamp

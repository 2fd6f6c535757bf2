import LicenseStamp.Proofs.Path.Components
import Mathlib.Logic.Relation

/-! # Spellings of a path

Void pieces may be put into a path wherever a slash stands, or behind it, and taken out again. The
components stay the same.
-/

namespace LicenseStamp.Path

/-- A path and the same path with one more void piece. -/
inductive Padded : Path → Path → Prop where
  /-- A slash stands twice. -/
  | slash (front back : Bytes) : Padded ⟨front ++ slash :: back⟩ ⟨front ++ slash :: slash :: back⟩
  /-- A dot stands between two slashes. -/
  | dot (front back : Bytes) : Padded ⟨front ++ slash :: back⟩ ⟨front ++ slash :: dot :: slash :: back⟩
  /-- A slash stands behind the path. -/
  | lastSlash {front : Bytes} (hfront : front ≠ []) : Padded ⟨front⟩ ⟨front ++ [slash]⟩
  /-- A slash and a dot stand behind the path. -/
  | lastDot {front : Bytes} (hfront : front ≠ []) : Padded ⟨front⟩ ⟨front ++ [slash, dot]⟩

/-- Two paths that become each other when void pieces are put in and taken out. -/
def IsRespelled : Path → Path → Prop := Relation.EqvGen Padded

theorem components_append_slash (front tail : Bytes) :
    (Path.mk (front ++ slash :: tail)).components =
      (stem front).1.components ++ (solid (stem front).2).map ofPiece ++
        (solid (tail.splitOn slash)).map ofPiece := by
  rw [components_eq, split_append_slash, solid_append, List.map_append, List.append_assoc]

/-- A void piece in front of the last slash of a path does not count. -/
theorem components_append_void {void : Bytes} (hslash : slash ∉ void) (hvoid : isVoid void = true)
    (front back : Bytes) : (Path.mk (front ++ slash :: (void ++ slash :: back))).components =
      (Path.mk (front ++ slash :: back)).components := by
  have hsolid : solid (void :: back.splitOn slash) = solid (back.splitOn slash) :=
    List.filter_cons_of_neg (by simp [hvoid])
  rw [components_append_slash, components_append_slash front back, List.splitOn_append_cons_self,
    List.splitOn_eq_singleton hslash, List.singleton_append, hsolid]

/-- A void piece behind a path does not count. -/
theorem components_concat_void {front void : Bytes} (hfront : front ≠ []) (hslash : slash ∉ void)
    (hvoid : isVoid void = true) :
    (Path.mk (front ++ slash :: void)).components = (Path.mk front).components := by
  have hsolid : solid [void] = [] := List.filter_cons_of_neg (by simp [hvoid])
  rw [components_append_slash, List.splitOn_eq_singleton hslash, hsolid, List.map_nil,
    List.append_nil, components_eq, split_eq_stem hfront]

variable {path other : Path}

theorem Padded.components_eq (h : Padded path other) : path.components = other.components := by
  cases h with
  | slash front back => exact (components_append_void List.not_mem_nil rfl front back).symm
  | dot front back =>
      exact (@components_append_void [Path.dot] (by decide) rfl front back).symm
  | lastSlash hfront => exact (components_concat_void hfront List.not_mem_nil rfl).symm
  | lastDot hfront => exact (components_concat_void hfront (by decide) rfl).symm

/-- However a path is respelled, it has the same components. -/
theorem IsRespelled.components_eq (h : path.IsRespelled other) :
    path.components = other.components := by
  induction h with
  | rel _ _ h => exact h.components_eq
  | refl => rfl
  | symm _ _ _ ih => exact ih.symm
  | trans _ _ _ _ _ ih ih' => exact ih.trans ih'

end LicenseStamp.Path

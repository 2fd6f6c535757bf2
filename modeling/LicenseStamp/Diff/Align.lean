import LicenseStamp.Diff.Ends
import LicenseStamp.Diff.Script
import LicenseStamp.Diff.Snake

/-! # Alignment of two lists

The common start and the common end of two lists are kept. What lies between is cut at
the middle of a shortest edit path and each half is aligned in the same way.
-/

namespace LicenseStamp.Diff

variable {α : Type} [DecidableEq α]

/-- A stretch of kept items, left out when there are none. -/
def keepIfAny (items : List α) : Script α := if items.isEmpty then [] else [.keep items]

/-- Whether a point cuts two lists of the given lengths into two smaller problems. -/
def IsCut (n m x y : Nat) : Prop := x ≤ n ∧ y ≤ m ∧ 0 < x + y ∧ x + y < n + m

instance (n m x y : Nat) : Decidable (IsCut n m x y) :=
  inferInstanceAs (Decidable (x ≤ n ∧ y ≤ m ∧ 0 < x + y ∧ x + y < n + m))

/-- An edit script from one list to another. -/
def align (old new : List α) : Script α :=
  let start := splitStart old new
  let ends := splitEnd start.2.1 start.2.2
  let olds := ends.1
  let news := ends.2.1
  let between : Script α :=
    if news.isEmpty then if olds.isEmpty then [] else [.only .old olds]
    else if olds.isEmpty then [.only .new news]
    else
      let (x, y) := (middle? olds news).getD (0, 0)
      if IsCut olds.length news.length x y then
        align (olds.take x) (news.take y) ++ align (olds.drop x) (news.drop y)
      else [.only .old olds, .only .new news]
  keepIfAny start.1 ++ between ++ keepIfAny ends.2.2
termination_by old.length + new.length
decreasing_by
  all_goals
    have hs := length_splitStart_le old new
    have he := length_splitEnd_le (splitStart old new).2.1 (splitStart old new).2.2
    rename_i hcut
    obtain ⟨hx, hy, hpos, hlt⟩ : IsCut (splitEnd (splitStart old new).2.1 (splitStart old new).2.2).1.length
      (splitEnd (splitStart old new).2.1 (splitStart old new).2.2).2.1.length x y := hcut
    simp only [List.length_take, List.length_drop]
    omega

end LicenseStamp.Diff

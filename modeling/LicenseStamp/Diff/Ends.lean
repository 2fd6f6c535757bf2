/-! # Common ends of two lists

The longest common start of two lists and the longest common end of two lists.
-/

namespace LicenseStamp.Diff

variable {α : Type} [DecidableEq α]

/-- The longest common start of two lists and what follows it in each. -/
def splitStart : List α → List α → List α × List α × List α
  | a :: as, b :: bs =>
    if a = b then
      let (common, restA, restB) := splitStart as bs
      (a :: common, restA, restB)
    else ([], a :: as, b :: bs)
  | as, bs => ([], as, bs)

/-- What comes before the longest common end in each of two lists, and that end. -/
def splitEnd (as bs : List α) : List α × List α × List α :=
  let (common, restA, restB) := splitStart as.reverse bs.reverse
  (restA.reverse, restB.reverse, common.reverse)

theorem splitStart_eq (as bs : List α) :
    (splitStart as bs).1 ++ (splitStart as bs).2.1 = as ∧
      (splitStart as bs).1 ++ (splitStart as bs).2.2 = bs := by
  fun_induction splitStart as bs with
  | case1 a as bs common restA restB heq ih => simp_all
  | case2 => simp
  | case3 => simp

theorem splitEnd_eq (as bs : List α) :
    (splitEnd as bs).1 ++ (splitEnd as bs).2.2 = as ∧
      (splitEnd as bs).2.1 ++ (splitEnd as bs).2.2 = bs := by
  obtain ⟨ha, hb⟩ := splitStart_eq as.reverse bs.reverse
  exact ⟨by simp [splitEnd, ← List.reverse_append, ha],
    by simp [splitEnd, ← List.reverse_append, hb]⟩

theorem length_splitStart_le (as bs : List α) :
    (splitStart as bs).2.1.length ≤ as.length ∧ (splitStart as bs).2.2.length ≤ bs.length := by
  obtain ⟨ha, hb⟩ := splitStart_eq as bs
  constructor
  · have := congrArg List.length ha
    simp only [List.length_append] at this
    omega
  · have := congrArg List.length hb
    simp only [List.length_append] at this
    omega

theorem length_splitEnd_le (as bs : List α) :
    (splitEnd as bs).1.length ≤ as.length ∧ (splitEnd as bs).2.1.length ≤ bs.length := by
  obtain ⟨ha, hb⟩ := splitEnd_eq as bs
  constructor
  · have := congrArg List.length ha
    simp only [List.length_append] at this
    omega
  · have := congrArg List.length hb
    simp only [List.length_append] at this
    omega

end LicenseStamp.Diff

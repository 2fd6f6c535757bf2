import LicenseStamp.Proofs.Text.Utf8
import LicenseStamp.Text.Blank
import LicenseStamp.Text.LowerCase
import Mathlib.Data.List.Forall2

/-! # ASCII letters in either case

Lower-casing a text looks at the neighbours of a capital sigma. It only asks which of them have a case
and which are ignored, and both cases of an ASCII letter answer the same. So a text with some of its
ASCII letters in the other case is the same text in lower case, whatever stands between them.
-/

namespace LicenseStamp.Text

/-- The same character, or the same ASCII letter in the other case. -/
def SameLetter (c d : Char) : Prop := d = c ∨ d = c.toLower ∨ d = c.toUpper

/-- A text with some of its ASCII letters in the other case. -/
def Recased (text other : Text) : Prop := List.Forall₂ SameLetter text other

variable {c d : Char} {text other before before' : Text}

theorem toLower_cases (c : Char) :
    c.toLower = c ∨ ∃ n < 26, c = Char.ofNat (65 + n) ∧ c.toLower = Char.ofNat (97 + n) := by
  have hletters : ∀ n < 26, (Char.ofNat (65 + n)).toLower = Char.ofNat (97 + n) := by decide
  by_cases h : c.val ≥ 'A'.val ∧ c.val ≤ 'Z'.val
  · right
    have hlow : 65 ≤ c.toNat := h.1
    have hhigh : c.toNat ≤ 90 := h.2
    have hc : c = Char.ofNat (65 + (c.toNat - 65)) := by
      rw [Nat.add_sub_cancel' hlow, Char.ofNat_toNat]
    refine ⟨c.toNat - 65, by omega, hc, ?_⟩
    conv => lhs; rw [hc]
    exact hletters _ (by omega)
  · exact .inl (dif_neg h)

theorem toUpper_cases (c : Char) :
    c.toUpper = c ∨ ∃ n < 26, c = Char.ofNat (97 + n) ∧ c.toUpper = Char.ofNat (65 + n) := by
  have hletters : ∀ n < 26, (Char.ofNat (97 + n)).toUpper = Char.ofNat (65 + n) := by decide
  by_cases h : 'a'.val ≤ c.val ∧ c.val ≤ 'z'.val
  · right
    have hlow : 97 ≤ c.toNat := h.1
    have hhigh : c.toNat ≤ 122 := h.2
    have hc : c = Char.ofNat (97 + (c.toNat - 97)) := by
      rw [Nat.add_sub_cancel' hlow, Char.ofNat_toNat]
    refine ⟨c.toNat - 97, by omega, hc, ?_⟩
    conv => lhs; rw [hc]
    exact hletters _ (by omega)
  · exact .inl (dif_neg h)

/-- What is the same for both cases of each letter does not depend on the case. -/
theorem SameLetter.eq_of_letters {α : Type} {f : Char → α}
    (hf : ∀ n < 26, f (Char.ofNat (97 + n)) = f (Char.ofNat (65 + n))) (h : SameLetter c d) :
    f d = f c := by
  rcases h with rfl | rfl | rfl
  · rfl
  · rcases toLower_cases c with hsame | ⟨n, hn, hc, hlower⟩
    · rw [hsame]
    · rw [hlower, hf n hn, ← hc]
  · rcases toUpper_cases c with hsame | ⟨n, hn, hc, hupper⟩
    · rw [hsame]
    · rw [hupper, ← hf n hn, ← hc]

theorem isCaseIgnorable_letter {n : Nat} (hn : 65 ≤ n ∧ n ≤ 90 ∨ 97 ≤ n ∧ n ≤ 122) :
    isCaseIgnorable (Char.ofNat n) = false := by
  have hranges : ∀ range ∈ CaseTable.ignorableRanges,
      range.2 < 65 ∨ 90 < range.1 ∧ range.2 < 97 ∨ 122 < range.1 := by decide +kernel
  have hletter : (Char.ofNat n).toNat = n := Utf8.toNat_ofNat_of_valid (.inl (by omega))
  rw [isCaseIgnorable, isWithin, List.any_eq_false]
  intro range hrange
  have hout := hranges range hrange
  simp only [hletter, Bool.and_eq_true, decide_eq_true_eq]
  omega

namespace SameLetter

theorem isCased_eq (h : SameLetter c d) : isCased d = isCased c :=
  h.eq_of_letters (by decide +kernel)

theorem isCaseIgnorable_eq (h : SameLetter c d) : isCaseIgnorable d = isCaseIgnorable c := by
  apply h.eq_of_letters
  intro n hn
  rw [isCaseIgnorable_letter (by omega), isCaseIgnorable_letter (by omega)]

theorem isBlank_eq (h : SameLetter c d) : isBlank d = isBlank c :=
  h.eq_of_letters (by decide +kernel)

theorem lowerChar_eq (h : SameLetter c d) : lowerChar d = lowerChar c :=
  h.eq_of_letters (by decide +kernel)

/-- A character that is no letter is only the same as itself. -/
theorem eq_iff (h : SameLetter c d) {mark : Char}
    (hmark : ∀ n < 26, Char.ofNat (97 + n) ≠ mark ∧ Char.ofNat (65 + n) ≠ mark) :
    d = mark ↔ c = mark := by
  rw [← eq_iff_iff]
  apply h.eq_of_letters (f := fun c => c = mark)
  intro n hn
  simp [hmark n hn]

end SameLetter

theorem meetsCased_cons (c : Char) (rest : Text) :
    meetsCased (c :: rest) = if isCaseIgnorable c then meetsCased rest else isCased c := by
  cases h : isCaseIgnorable c <;> simp [meetsCased, h]

namespace Recased

theorem meetsCased_eq (h : Recased text other) : meetsCased other = meetsCased text := by
  induction h with
  | nil => rfl
  | cons hchar hrest ih =>
      rw [meetsCased_cons, meetsCased_cons, hchar.isCaseIgnorable_eq, hchar.isCased_eq, ih]

theorem lowerAfter_eq (hbefore : Recased before before') (h : Recased text other) :
    lowerAfter before' other = lowerAfter before text := by
  -- a capital sigma looks back as well, so the text before it may be in the other case too
  induction h generalizing before before' with
  | nil => rfl
  | cons hchar hrest ih =>
      have hsigma := hchar.eq_iff (by decide : ∀ n < 26, Char.ofNat (97 + n) ≠ 'Σ' ∧
        Char.ofNat (65 + n) ≠ 'Σ')
      simp only [lowerAfter, hsigma, hbefore.meetsCased_eq, meetsCased_eq hrest, hchar.lowerChar_eq,
        ih (.cons hchar hbefore)]

/-- Lower case does not depend on the case of ASCII letters. -/
theorem lower_eq (h : Recased text other) : lower other = lower text :=
  lowerAfter_eq .nil h

theorem isBlankLine_eq (h : Recased text other) : isBlankLine other = isBlankLine text := by
  induction h with
  | nil => rfl
  | cons hchar hrest ih =>
      simp only [isBlankLine, List.all_cons] at ih ⊢
      rw [hchar.isBlank_eq, ih]

end Recased

end LicenseStamp.Text

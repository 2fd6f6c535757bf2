import LicenseStamp.Text.Basic

/-! # Blank characters

White space in the sense of the Unicode property `White_Space`, blank lines, and
the removal of blanks from the end of a text.
-/

namespace LicenseStamp.Text

/-- Whether a character is white space. -/
def isBlank (c : Char) : Bool :=
  let code := c.toNat
  (0x09 ≤ code && code ≤ 0x0D) || code == 0x20 || code == 0x85 || code == 0xA0 || code == 0x1680
    || (0x2000 ≤ code && code ≤ 0x200A) || code == 0x2028 || code == 0x2029 || code == 0x202F
    || code == 0x205F || code == 0x3000

/-- Whether a line is empty or holds white space only. -/
def isBlankLine (line : Text) : Bool := line.all isBlank

/-- A text without the white space at its end. -/
def trimEnd : Text → Text
  | [] => []
  | c :: rest =>
    match trimEnd rest with
    | [] => if isBlank c then [] else [c]
    | kept => c :: kept

theorem trimEnd_eq_nil_iff {text : Text} : trimEnd text = [] ↔ isBlankLine text = true := by
  induction text with
  | nil => simp [trimEnd, isBlankLine]
  | cons c rest ih =>
    simp only [isBlankLine, List.all_cons, Bool.and_eq_true] at ih ⊢
    cases hr : trimEnd rest with
    | nil => simp [trimEnd, hr, ih.1 hr]
    | cons d kept => simp [trimEnd, hr, ← ih]

theorem trimEnd_blank {text : Text} (h : isBlankLine text = true) : trimEnd text = [] :=
  trimEnd_eq_nil_iff.2 h

/-- Every text is its trimmed form followed by white space. -/
theorem exists_blank_tail (text : Text) :
    ∃ tail, isBlankLine tail = true ∧ text = trimEnd text ++ tail := by
  induction text with
  | nil => exact ⟨[], rfl, rfl⟩
  | cons c rest ih =>
    obtain ⟨tail, hblank, hrest⟩ := ih
    cases hr : trimEnd rest with
    | cons d kept =>
      rw [hr] at hrest
      exact ⟨tail, hblank, by simp only [trimEnd, hr, List.cons_append, ← hrest]⟩
    | nil =>
      rw [hr, List.nil_append] at hrest
      subst hrest
      by_cases hc : isBlank c = true
      · exact ⟨c :: rest, by simpa [isBlankLine, hc] using hblank, by simp [trimEnd, hr, hc]⟩
      · exact ⟨rest, hblank, by simp [trimEnd, hr, hc]⟩

end LicenseStamp.Text

import LicenseStamp.Text.Blank

/-! # Parts of patterns

A pattern is made of parts that may stand in each other. Flags, set on the way, decide
what may stand in it and whether blanks and comments are passed over.
-/

namespace LicenseStamp.Log

/-- The flags of a pattern that decide what may stand in it. -/
structure PatternFlags where
  /-- Whether letter case is ignored -/
  anyCase : Bool
  /-- Whether characters are meant, rather than bytes -/
  characters : Bool
  /-- Whether blanks and comments between parts are passed over -/
  spaced : Bool
  deriving Repr, DecidableEq

namespace PatternFlags

/-- The flags at the start of a pattern. -/
def initial : PatternFlags := ⟨false, true, false⟩

/-- Whether a character may stand for itself: the other case of a character is known for
    bytes only. -/
def allowsLiterals (flags : PatternFlags) : Bool := !(flags.anyCase && flags.characters)

/-- A text without the blanks in front, and without the comments there, which reach from a
    number sign to the end of the line. -/
def afterBlanks (inComment : Bool) : Text → Text
  | [] => []
  | c :: rest =>
    if inComment then afterBlanks (c ≠ '\n') rest
    else if Text.isBlank c then afterBlanks false rest
    else if c = '#' then afterBlanks true rest
    else c :: rest

/-- What is to be read next. -/
def skip (flags : PatternFlags) (text : Text) : Text :=
  if flags.spaced then afterBlanks false text else text

/-- The first character of a text behind blanks and one number sign. -/
def behindBlanks? (inComment : Bool) : Text → Option Char
  | [] => none
  | c :: rest =>
    if Text.isBlank c then behindBlanks? inComment rest
    else if c = '#' && !inComment then behindBlanks? true rest
    else some c

/-- The character that tells what a dash in a class means. The number sign of a comment is
    passed over on the way to it, but not the words of the comment. -/
def peek? (flags : PatternFlags) (text : Text) : Option Char :=
  if flags.spaced then behindBlanks? false text else text.head?

theorem length_afterBlanks_le (inComment : Bool) (text : Text) :
    (afterBlanks inComment text).length ≤ text.length := by
  fun_induction afterBlanks inComment text with
  | case1 => exact Nat.le_refl _
  | case5 => exact Nat.le_refl _
  | case2 _ _ ih => exact Nat.le_trans ih (Nat.le_succ _)
  | case3 _ _ _ _ _ ih => exact Nat.le_trans ih (Nat.le_succ _)
  | case4 _ _ _ _ ih => exact Nat.le_trans ih (Nat.le_succ _)

theorem length_skip_le (flags : PatternFlags) (text : Text) :
    (flags.skip text).length ≤ text.length := by
  unfold skip
  split
  · exact length_afterBlanks_le false text
  · exact Nat.le_refl _

end PatternFlags

namespace Pattern

/-- How deep parts may be nested. -/
def maxDepth : Nat := 250

/-- The depth of some parts side by side. A part alone is not wrapped. -/
def depthTogether : List Nat → Nat
  | [] => 0
  | [depth] => depth
  | depths => depths.foldl max 0 + 1

end Pattern

end LicenseStamp.Log

import LicenseStamp.Text.Blank
import LicenseStamp.Text.Lines
import LicenseStamp.Text.LowerCase

/-! # Obsolete headers

An obsolete header is known by a signature on one of the first lines of a text. It
reaches down to the next blank line, or to the end of the text when there is none.
Removing it removes everything above it too, and the blank lines below it.
-/

namespace LicenseStamp.Obsolete

/-- Fragments of obsolete headers, in lower case. -/
def signatures : List Text :=
  ["permission is hereby granted, free of charge".toList,
    "mit license".toList,
    "mind language specification".toList,
    "community edition".toList,
    "cone development".toList]

/-- How many lines from the top are searched for a signature. -/
def window : Nat := 40

/-- Whether a line holds a signature, in any case. -/
def isSigned (line : Text) : Bool :=
  let small := Text.lower line
  signatures.any fun signature => Text.contains signature small

/-- The index of the first signed line in the window. -/
def findLine? (ls : List Text) : Option Nat := (ls.take window).findIdx? isSigned

/-- The lines below the header that starts with the first of the given lines. -/
def below (ls : List Text) : List Text :=
  let afterHeader := (ls.drop 1).dropWhile (fun line => !Text.isBlankLine line)
  (afterHeader.drop 1).dropWhile Text.isBlankLine

/-- The text without its obsolete header, or nothing when it has none. -/
def strip? (text : Text) : Option Text :=
  let ls := Text.lines text
  (findLine? ls).map fun start => Text.unlines (below (ls.drop start))

/-- The text without its obsolete header; a text that has none is left as it is. -/
def strip (text : Text) : Text := (strip? text).getD text

theorem strip?_eq_none_iff {text : Text} :
    strip? text = none ↔ ∀ line ∈ (Text.lines text).take window, isSigned line = false := by
  rw [strip?, Option.map_eq_none_iff, findLine?, List.findIdx?_eq_none_iff]

end LicenseStamp.Obsolete

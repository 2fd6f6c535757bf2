import LicenseStamp.Text.Basic

/-! # Lines

A line ends at a line feed, together with one carriage return right before it. The
end of the text ends the last line, and no empty line follows a final line feed.
-/

namespace LicenseStamp.Text

/-- Puts a character before the first of some lines, or makes it a line of its own. -/
def consLine (c : Char) : List Text → List Text
  | [] => [[c]]
  | line :: rest => (c :: line) :: rest

/-- The lines of a text, without their ends. -/
def lines : Text → List Text
  | [] => []
  | '\n' :: rest => [] :: lines rest
  | '\r' :: '\n' :: rest => [] :: lines rest
  | c :: rest => consLine c (lines rest)

/-- Lines put together again with a line feed between neighbours. -/
def unlines (ls : List Text) : Text := join ['\n'] ls

end LicenseStamp.Text

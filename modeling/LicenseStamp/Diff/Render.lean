import LicenseStamp.Diff.Align
import LicenseStamp.Diff.Tidy
import LicenseStamp.Path.Basic
import LicenseStamp.Text.Lines

/-! # Line diffs

A diff shows the lines of two texts under a heading, each line behind a sign: a minus
for lines of the old text, a plus for lines of the new one, a blank for lines of both.
-/

namespace LicenseStamp.Diff

/-- The lines of a text with their ends. Here a lone carriage return ends a line too. -/
def endedLines : Text → List Text
  | [] => []
  | '\n' :: rest => ['\n'] :: endedLines rest
  | '\r' :: '\n' :: rest => ['\r', '\n'] :: endedLines rest
  | '\r' :: rest => ['\r'] :: endedLines rest
  | c :: rest => Text.consLine c (endedLines rest)

/-- The edit script between the lines of two texts. -/
def ofTexts (old new : Text) : Script Text := (align (endedLines old) (endedLines new)).tidy

/-- The sign in front of a line. -/
def Mark.sign : Mark → Char
  | .kept => ' '
  | .removed => '-'
  | .added => '+'

/-- A line with a line end, added where the text stopped without one. -/
def closeLine (line : Text) : Text :=
  match line.getLast? with
  | some c => if c = '\n' ∨ c = '\r' then line else line ++ ['\n']
  | none => ['\n']

/-- A marked line as shown. -/
def showChange (change : Mark × Text) : Text := change.1.sign :: closeLine change.2

/-- The heading of a diff. -/
def heading (path : Path) : Text := "Diff for ".toList ++ path.display ++ ":\n".toList

/-- The diff between two texts of a file. -/
def render (path : Path) (old new : Text) : Text :=
  heading path ++ (ofTexts old new).changes.flatMap showChange

end LicenseStamp.Diff

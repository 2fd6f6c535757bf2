import LicenseStamp.Console.Mode
import LicenseStamp.Diff.Render

/-! # Printed diffs

A diff in colour: green for lines that start with a plus, red for lines that start with a
minus. An empty line follows it.
-/

namespace LicenseStamp.Console

/-- A line of a diff as printed. -/
def diffLine (color : Bool) (line : Text) : Text :=
  match line.head? with
  | some '+' => Color.green.paint color line ++ ['\n']
  | some '-' => Color.red.paint color line ++ ['\n']
  | _ => line ++ ['\n']

/-- The diff between two texts of a file as printed. -/
def diff (color : Bool) (path : Path) (old new : Text) : Text :=
  (Text.lines (Diff.render path old new)).flatMap (diffLine color) ++ ['\n']

end LicenseStamp.Console

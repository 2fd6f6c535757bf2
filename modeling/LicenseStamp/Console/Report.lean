import LicenseStamp.Console.Mode
import LicenseStamp.Report.Summary

/-! # The printed report

On standard output a banner and one line for each changed file, or a single line when
there is none. In verbose mode the counters follow on standard error.
-/

namespace LicenseStamp.Console

/-- The line that tells that no file needed a header. -/
def nothingToDo : Text := "No header updates needed.".toList

/-- The line above the changed files. -/
def banner (dryRun : Bool) : Text :=
  if dryRun then "Headers would be updated for:".toList else "Updated headers for:".toList

/-- The line of a changed file. -/
def changedLine (path : Path) : Text := " - ".toList ++ path.display ++ ['\n']

/-- The report on standard output. -/
def report (mode : OutputMode) (color : Bool) (summary : Summary) : Text :=
  if mode = .quiet then []
  else if summary.hasChanges then
    Color.yellow.paint color (banner summary.dryRun) ++ '\n' :: summary.changed.flatMap changedLine
  else Color.green.paint color nothingToDo ++ ['\n']

/-- The counters on one line; `seconds` is how the elapsed time is written. -/
def counters (summary : Summary) (seconds : Text) : Text :=
  "Summary: ".toList ++ Text.ofNat summary.seen ++ " files seen, ".toList
    ++ Text.ofNat summary.candidates ++ " candidates, ".toList
    ++ Text.ofNat summary.changed.length ++ " changed (".toList
    ++ Text.ofNat summary.replaced ++ " replaced an old header), ".toList
    ++ Text.ofNat summary.compliant ++ " already licensed, ".toList
    ++ Text.ofNat summary.skipped ++ " skipped (".toList ++ seconds ++ "s)".toList

/-- The counters on standard error, in verbose mode. -/
def countersLine (mode : OutputMode) (summary : Summary) (seconds : Text) : Text :=
  mode.verboseLine (counters summary seconds)

end LicenseStamp.Console

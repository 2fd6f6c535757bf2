import LicenseStamp.Path.Order
import LicenseStamp.Report.File

/-! # Summary of a run

The changed files of a run in path order, and how many files met which fate.
-/

namespace LicenseStamp

/-- Files and counters of one run. -/
structure Summary where
  /-- The changed files, in path order -/
  changed : List Path
  /-- How many files were seen -/
  seen : Nat
  /-- How many of them may receive a header -/
  candidates : Nat
  /-- How many had an obsolete header replaced -/
  replaced : Nat
  /-- How many carried the header already -/
  compliant : Nat
  /-- How many may not receive a header -/
  skipped : Nat
  /-- Whether the run only checked -/
  dryRun : Bool
  deriving Repr, DecidableEq

namespace Summary

/-- How many reports tell of an action. -/
def count (action : Action) (reports : List FileReport) : Nat :=
  reports.countP fun report => report.action = action

/-- The summary of the reports of a run. -/
def ofReports (reports : List FileReport) (dryRun : Bool) : Summary where
  changed := Path.sort ((reports.filter fun report => report.action.isChange).map (·.path))
  seen := reports.length
  candidates := reports.length - count .skipped reports
  replaced := count .replaced reports
  compliant := count .unchanged reports
  skipped := count .skipped reports
  dryRun := dryRun

/-- Whether any file was changed. -/
def hasChanges (summary : Summary) : Bool := !summary.changed.isEmpty

end Summary

end LicenseStamp

import LicenseStamp.Decimal.Seconds
import LicenseStamp.Json.Printer
import LicenseStamp.Report.Summary

/-! # Report documents

The reports and the summary of a run as a JSON document. Paths are written with forward
slashes only, and bytes that spell no character as U+FFFD.
-/

namespace LicenseStamp

/-- A path in a report document. -/
def Path.reported (path : Path) : Text :=
  path.display.map fun c => if c = '\\' then '/' else c

/-- A file report as JSON; the reason is left out when there is none. -/
def FileReport.toJson (report : FileReport) : Json :=
  .object
    ([("path".toList, .string report.path.reported),
        ("style".toList, (report.style.map fun style => Json.string style.name).getD .null),
        ("action".toList, .string report.action.name)]
      ++ (report.reason.map fun reason => ("skipped_reason".toList, Json.string reason)).toList)

/-- A summary as JSON. -/
def Summary.toJson (summary : Summary) (elapsed : Duration) : Json :=
  .object
    [("changed".toList, .array (summary.changed.map fun path => .string path.reported)),
      ("files_seen".toList, .ofNat summary.seen),
      ("candidates".toList, .ofNat summary.candidates),
      ("replaced".toList, .ofNat summary.replaced),
      ("already_compliant".toList, .ofNat summary.compliant),
      ("skipped".toList, .ofNat summary.skipped),
      ("dry_run".toList, .bool summary.dryRun),
      ("elapsed".toList, .number elapsed.toDyadic.text)]

/-- The text of the report document of a run. -/
def reportDocument (reports : List FileReport) (summary : Summary) (elapsed : Duration) : Text :=
  Json.pretty (.object
    [("summary".toList, summary.toJson elapsed),
      ("files".toList, .array (reports.map FileReport.toJson))])

end LicenseStamp

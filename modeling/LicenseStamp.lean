import LicenseStamp.Text.Newline
import LicenseStamp.Text.Utf8
import LicenseStamp.Header.Stamp
import LicenseStamp.Path.Order
import LicenseStamp.Path.Relative
import LicenseStamp.Selection.Eligibility
import LicenseStamp.Diff.Render
import LicenseStamp.Decimal.Seconds
import LicenseStamp.Json.Printer
import LicenseStamp.Json.Reader
import LicenseStamp.Report.Document
import LicenseStamp.Console.Report
import LicenseStamp.Console.Diff
import LicenseStamp.Log.Filter
import LicenseStamp.Command.Arguments
import LicenseStamp.Tree.Access
import LicenseStamp.Tree.Walk
import LicenseStamp.Command.Run
import LicenseStamp.Main
import LicenseStamp.Proofs.Tree.Shape
import LicenseStamp.Proofs.Tree.Put
import LicenseStamp.Proofs.Tree.Leads
import LicenseStamp.Proofs.Tree.Limits
import LicenseStamp.Proofs.Tree.ReadWrite
import LicenseStamp.Proofs.Path.Descent
import LicenseStamp.Proofs.Tree.WellFormed
import LicenseStamp.Proofs.Tree.Collected
import LicenseStamp.Proofs.Text.Utf8
import LicenseStamp.Proofs.Header.Marker
import LicenseStamp.Proofs.Run.Step
import LicenseStamp.Proofs.Run.Effect
import LicenseStamp.Proofs.Run.Containment
import LicenseStamp.Proofs.Run.Idempotence
import LicenseStamp.Proofs.Run.Success
import LicenseStamp.Proofs.Run.Reports
import LicenseStamp.Proofs.Run.SkipRules
import LicenseStamp.Proofs.Tree.Operations
import LicenseStamp.Proofs.Tree.Extensionality
import LicenseStamp.Proofs.Report.Summary
import LicenseStamp.Proofs.Run.Decision
import LicenseStamp.Proofs.Run.CheckOnly
import LicenseStamp.Proofs.Path.Order
import LicenseStamp.Proofs.Path.Relative
import LicenseStamp.Proofs.Run.Order
import LicenseStamp.Proofs.Run.Race
import LicenseStamp.Proofs.Run.Resumption
import LicenseStamp.Proofs.Tree.Coverage
import LicenseStamp.Proofs.Selection.Pruning
import LicenseStamp.Proofs.Run.LineEnds
import LicenseStamp.Proofs.Run.Spelling
import LicenseStamp.Proofs.Command.Check
import LicenseStamp.Proofs.Path.Joined
import LicenseStamp.Proofs.Tree.Root
import LicenseStamp.Proofs.Run.Naming
import LicenseStamp.Proofs.Text.Digits
import LicenseStamp.Proofs.Json.Grammar
import LicenseStamp.Proofs.Json.Reader
import LicenseStamp.Proofs.Json.Printer
import LicenseStamp.Proofs.Decimal.Shortest
import LicenseStamp.Proofs.Report.Document
import LicenseStamp.Proofs.Path.Reported
import LicenseStamp.Proofs.Run.Document
import LicenseStamp.Proofs.Command.Reading
import LicenseStamp.Proofs.Command.Tokens
import LicenseStamp.Proofs.Command.Printing
import LicenseStamp.Proofs.Text.Rejoining
import LicenseStamp.Proofs.Header.Removal
import LicenseStamp.Proofs.Header.Composed
import LicenseStamp.Proofs.Run.NormalForm
import LicenseStamp.Proofs.Diff.Sides
import LicenseStamp.Proofs.Diff.Shown
import LicenseStamp.Proofs.Path.Components
import LicenseStamp.Proofs.Path.Normal
import LicenseStamp.Proofs.Path.Respelling
import LicenseStamp.Proofs.Selection.ByComponents
import LicenseStamp.Proofs.Selection.Leaves
import LicenseStamp.Proofs.Report.Accounting
import LicenseStamp.Proofs.Tree.Canonical
import LicenseStamp.Proofs.Diff.Insertion
import LicenseStamp.Proofs.Text.OnePass
import LicenseStamp.Proofs.Console.Report
import LicenseStamp.Proofs.Run.Restamping
import LicenseStamp.Proofs.Text.LetterCase
import LicenseStamp.Proofs.Text.Positions
import LicenseStamp.Proofs.Header.LetterCase

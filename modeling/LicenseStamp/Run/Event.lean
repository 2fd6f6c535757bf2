import LicenseStamp.Console.Diff
import LicenseStamp.Console.Report
import LicenseStamp.Log.Record

/-! # Events of a run

What a run tells on the way, in order. Most events are log records; the others are lines
that the output mode or the settings ask for.
-/

namespace LicenseStamp

/-- Something that a run tells. -/
inductive Event where
  /-- The root was found. -/
  | rootChosen (root : Path)
  /-- The run starts. -/
  | started (root : Path)
  /-- The walk starts. -/
  | walkStarted (root : Path)
  /-- A directory is not entered. -/
  | dirPassed (path : Path)
  /-- A link does not lead to a file of the tree. -/
  | linkPassed (path : Path)
  /-- The walk is over. -/
  | walked (files : Nat)
  /-- A file may not receive a header. -/
  | rejected (path : Path) (reason : Text)
  /-- A file that may receive a header is read. -/
  | reading (path : Path)
  /-- A file carries the header already. -/
  | compliant (path : Path)
  /-- A file gets new content. -/
  | stamped (path : Path) (old new : Text)
  /-- The new content has the header in place of an obsolete one. -/
  | replaced (path : Path)
  /-- The new content has the header on top of the old content. -/
  | added (path : Path)
  /-- All files were processed. -/
  | processed (files changed : Nat)
  /-- The counters of the run are known. -/
  | counted (summary : Summary)
  /-- The report document was written. -/
  | reportWritten (path : Path)
  deriving Repr, DecidableEq

/-- How a run tells its events. -/
structure Console where
  /-- Which log records are shown -/
  filter : Log.Filter
  /-- How much is told -/
  mode : OutputMode
  /-- Whether diffs are shown -/
  showDiff : Bool
  /-- Whether standard error is in colour -/
  color : Bool

/-- How elapsed times are written. -/
structure Clock where
  /-- Whole milliseconds -/
  millis : Text
  /-- Seconds with two places -/
  seconds : Text

namespace Event

/-- The end of a record that tells how long something took. -/
def took (clock : Clock) : Text := " in ".toList ++ clock.millis ++ "ms".toList

/-- The log record of an event. -/
def record? (clock : Clock) : Event → Option Log.Record
  | .rootChosen root => some ⟨.root, .debug, "Using scan root: ".toList ++ root.display⟩
  | .started root => some ⟨.command, .debug, "Scanning ".toList ++ root.display⟩
  | .walkStarted root => some ⟨.walk, .debug, "Scanning directory: ".toList ++ root.display⟩
  | .dirPassed path => some ⟨.walk, .trace, "Pruning directory: ".toList ++ path.display⟩
  | .linkPassed path => some ⟨.walk, .trace, "Skipping symlink: ".toList ++ path.display⟩
  | .walked files =>
    some ⟨.walk, .debug, "Found ".toList ++ Text.ofNat files ++ " files".toList ++ took clock⟩
  | .rejected path reason =>
    some ⟨.choice, .trace, "Skipping: ".toList ++ path.display ++ " (".toList ++ reason ++ [')']⟩
  | .compliant path => some ⟨.processing, .trace, "Header already present: ".toList ++ path.display⟩
  | .replaced path =>
    some ⟨.processing, .debug, "Replaced obsolete header in: ".toList ++ path.display⟩
  | .added path => some ⟨.processing, .debug, "Added header to: ".toList ++ path.display⟩
  | .processed files changed =>
    some ⟨.processing, .debug, "Processed ".toList ++ Text.ofNat files ++ " files (".toList
      ++ Text.ofNat changed ++ " changed)".toList ++ took clock⟩
  | .reportWritten path =>
    some ⟨.command, .info, "Generated JSON report at ".toList ++ path.display⟩
  | .reading _ | .stamped _ _ _ | .counted _ => none

/-- What is printed for an event. -/
def render (console : Console) (clock : Clock) (event : Event) : Text :=
  match event with
  | .reading path => console.mode.verboseLine ("Processing file: ".toList ++ path.display)
  | .stamped path old new =>
    if console.showDiff then Console.diff console.color path old new else []
  | .counted summary => Console.countersLine console.mode summary clock.seconds
  | event =>
    match event.record? clock with
    | some record => console.filter.render record
    | none => []

end Event

end LicenseStamp

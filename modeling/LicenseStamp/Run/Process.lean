import LicenseStamp.Header.Stamp
import LicenseStamp.Path.Relative
import LicenseStamp.Run.Event
import LicenseStamp.Run.Failure
import LicenseStamp.Selection.Eligibility
import LicenseStamp.Tree.Walk

/-! # Processing files

Each file is decided about on its own: it may be skipped, kept as it is, or stamped. The
decision reads the disk; carrying it out changes the disk unless the run only checks. A
run processes the files that a walk collects, one after the other, and stops at the
first failure.
-/

namespace LicenseStamp

/-- What a run does. -/
structure Job where
  /-- The directory to scan -/
  root : Path
  /-- Whether to leave all files as they are -/
  check : Bool
  /-- Whether a text carries the header already -/
  licensed : Text → Bool

/-- What is done about a file. -/
inductive Decision where
  /-- It may not receive a header. -/
  | skip (reason : Text)
  /-- It carries the header already. -/
  | keep (style : HeaderStyle)
  /-- Its text is replaced by a stamped one. -/
  | stamp (style : HeaderStyle) (old : Text) (stamped : Stamped)
  deriving Repr, DecidableEq

/-- How far a run came. -/
structure Progress where
  /-- The disk after it -/
  disk : Disk
  /-- What was told on the way -/
  events : List Event
  /-- The reports of the files that were processed -/
  reports : List FileReport
  /-- Why it stopped before its end, if it did -/
  failure : Option Failure

namespace Decision

/-- What a decision does to a file. -/
def action : Decision → Action
  | .skip _ => .skipped
  | .keep _ => .unchanged
  | .stamp _ _ stamped => if stamped.replaced then .replaced else .added

/-- The report on a file after a decision. -/
def report (relative : Path) (decision : Decision) : FileReport where
  path := relative
  style :=
    match decision with
    | .skip _ => none
    | .keep style | .stamp style _ _ => some style
  action := decision.action
  reason :=
    match decision with
    | .skip reason => some reason
    | .keep _ | .stamp _ _ _ => none

/-- What is told before a decision is carried out. -/
def announce (path relative : Path) : Decision → List Event
  | .skip reason => [.rejected path reason]
  | .keep _ => [.reading relative, .compliant relative]
  | .stamp _ old stamped => [.reading relative, .stamped relative old stamped.content]

/-- What is told after a decision was carried out. -/
def confirm (relative : Path) : Decision → List Event
  | .skip _ | .keep _ => []
  | .stamp _ _ stamped => [if stamped.replaced then .replaced relative else .added relative]

/-- The disk after a decision about the file at a path. -/
def carryOut (disk : Disk) (path : Path) : Decision → Except DiskError Disk
  | .skip _ | .keep _ => .ok disk
  | .stamp _ _ stamped => disk.write path (Utf8.encode stamped.content)

end Decision

namespace Job

/-- A job that looks for the license marker. -/
def standard (root : Path) (check : Bool) : Job := ⟨root, check, hasMarker⟩

/-- What is to be done about the file at a path, as the disk stands. -/
def decide (job : Job) (disk : Disk) (path : Path) : Except ReadError Decision :=
  match Eligibility.classify job.root path with
  | .rejected reason => .ok (.skip reason)
  | .candidate style =>
    match disk.readText path with
    | .error cause => .error cause
    | .ok text =>
      if job.licensed text then .ok (.keep style) else .ok (.stamp style text (style.stamp text))

/-- Processes the file at a path. -/
def processFile (job : Job) (disk : Disk) (path : Path) : Progress :=
  let relative := path.relativeTo job.root
  match job.decide disk path with
  | .error cause => ⟨disk, [.reading relative], [], some (.read path cause)⟩
  | .ok decision =>
    match if job.check then .ok disk else decision.carryOut disk path with
    | .error cause => ⟨disk, decision.announce path relative, [], some (.write path cause)⟩
    | .ok after =>
      ⟨after, decision.announce path relative ++ decision.confirm relative,
        [decision.report relative], none⟩

/-- Processes files one after the other, up to the first failure. -/
def processFiles (job : Job) (disk : Disk) : List Path → Progress
  | [] => ⟨disk, [], [], none⟩
  | path :: rest =>
    let first := job.processFile disk path
    match first.failure with
    | some _ => first
    | none =>
      let later := job.processFiles first.disk rest
      ⟨later.disk, first.events ++ later.events, first.reports ++ later.reports, later.failure⟩

/-- What is told about something that the walk meets. -/
def tellVisit (disk : Disk) (root : Path) (visit : Visit) : List Event :=
  match visit.sight with
  | .file => []
  | .passed => [.dirPassed (root.descend visit.place)]
  | .link =>
    if disk.collects root visit then [] else [.linkPassed (root.descend visit.place)]

/-- What is told during the walk of a root. -/
def tellWalk (disk : Disk) (root : Path) : List Event :=
  .walkStarted root :: (disk.walk root).visits.flatMap (tellVisit disk root)

/-- Runs a job: processes the files that the walk of its root collects. -/
def run (job : Job) (disk : Disk) : Progress :=
  match disk.collect job.root with
  | .error cause => ⟨disk, tellWalk disk job.root, [], some (.walk job.root cause)⟩
  | .ok files =>
    let progress := job.processFiles disk files
    let summary := Summary.ofReports progress.reports job.check
    let closing : List Event :=
      if progress.failure.isNone then [.processed summary.seen summary.changed.length] else []
    { progress with
      events := tellWalk disk job.root ++ .walked files.length :: progress.events ++ closing }

/-- The summary of a run. -/
def summary (job : Job) (progress : Progress) : Summary :=
  Summary.ofReports progress.reports job.check

end Job

end LicenseStamp

import LicenseStamp.Command.Arguments
import LicenseStamp.Report.Document
import LicenseStamp.Run.Process

/-! # The command

From the arguments to the exit code: the root is resolved, its files are processed, the
report is printed and, where asked for, written. A check with pending changes ends with
the exit code of a failure, but says nothing about it.
-/

namespace LicenseStamp.Command

/-- What the command finds around it. -/
structure Surroundings where
  /-- The path of the program itself -/
  program : Path
  /-- The log filter asked for, if any -/
  logFilter : Option Text
  /-- How long the run takes -/
  elapsed : Duration
  /-- How elapsed times are written on standard error -/
  clock : Clock
  /-- Whether standard output is a terminal -/
  outTerminal : Bool
  /-- Whether standard error is a terminal -/
  errTerminal : Bool

/-- What the command leaves behind. -/
structure Ending where
  /-- The disk after it -/
  disk : Disk
  /-- The exit code -/
  code : Nat
  /-- The text on standard output -/
  out : Text
  /-- The text on standard error -/
  err : Text

namespace Settings

/-- How much a run tells. -/
def mode (settings : Settings) : OutputMode :=
  if 0 < settings.verbose then .verbose else if settings.quiet then .quiet else .normal

/-- How a run tells its events. -/
def console (settings : Settings) (around : Surroundings) : Console where
  filter := Log.Filter.ofRequest around.logFilter
    (Log.Level.ofFlags settings.quiet settings.verbose)
  mode := settings.mode
  showDiff := settings.showDiff
  color := settings.colors.isOn around.errTerminal

/-- The text of events on standard error. -/
def tell (settings : Settings) (around : Surroundings) (events : List Event) : Text :=
  events.flatMap (Event.render (settings.console around) around.clock)

/-- Processes the files below the root that the settings ask for. -/
def process (settings : Settings) (program : Path) (disk : Disk) : Progress :=
  match disk.chooseRoot program settings.root with
  | .error cause => ⟨disk, [], [], some (.root cause)⟩
  | .ok root =>
    let progress := (Job.standard root settings.check).run disk
    { progress with events := .rootChosen root :: .started root :: progress.events }

/-- Ends a run: prints the report and writes the report document, or tells why the run
    failed. -/
def conclude (settings : Settings) (around : Surroundings) (progress : Progress) : Ending :=
  match progress.failure with
  | some failure =>
    ⟨progress.disk, 1, [], settings.tell around progress.events ++ failure.fatal⟩
  | none =>
    let summary := Summary.ofReports progress.reports settings.check
    let out := Console.report settings.mode (settings.colors.isOn around.outTerminal) summary
    let events := progress.events ++ [.counted summary]
    let code := if settings.check ∧ summary.hasChanges then 1 else 0
    match settings.report with
    | none => ⟨progress.disk, code, out, settings.tell around events⟩
    | some path =>
      let document := reportDocument progress.reports summary around.elapsed
      match progress.disk.write path (Utf8.encode document) with
      | .error cause =>
        ⟨progress.disk, 1, out, settings.tell around events ++ (Failure.report path cause).fatal⟩
      | .ok disk => ⟨disk, code, out, settings.tell around (events ++ [.reportWritten path])⟩

/-- Does what the settings ask for. -/
def run (settings : Settings) (around : Surroundings) (disk : Disk) : Ending :=
  settings.conclude around (settings.process around.program disk)

end Settings

/-- The name and the version of the program. The long form can also name the commit that was built,
    which is left out. -/
def version : Text := "webheader 0.1.0\n".toList

/-- How the program is called. The rest of the help page, which describes the arguments, is left
    out. -/
def usage : Text := "Usage: webheader [OPTIONS] [ROOT]\n".toList

/-- Runs the command with some arguments. -/
def execute (around : Surroundings) (arguments : List Path) (disk : Disk) : Ending :=
  match Request.ofArguments arguments with
  | .error e => ⟨disk, 2, [], e.message .stream ++ ['\n']⟩
  | .ok .help => ⟨disk, 0, usage, []⟩
  | .ok .version => ⟨disk, 0, version, []⟩
  | .ok (.run settings) => settings.run around disk

end LicenseStamp.Command

import LicenseStamp.Console.Mode
import LicenseStamp.Console.Plain
import LicenseStamp.Path.Basic

/-! # Command-line arguments

Arguments are read from left to right. An option that takes a value, and the root, wait
until another argument settles them; only then is their value looked at. So a fault in
a waiting value shows after a fault in the argument that comes next when that one
cannot be read at all, and before any other.
-/

namespace LicenseStamp.Command

/-- What a run is asked to do. -/
structure Settings where
  /-- The directory to scan, if one was given -/
  root : Option Path
  /-- Whether to leave all files as they are -/
  check : Bool
  /-- Whether to show the diff of each change -/
  showDiff : Bool
  /-- Where to write the report document, if anywhere -/
  report : Option Path
  /-- How often more output was asked for, up to 255 -/
  verbose : Nat
  /-- Whether to print errors only -/
  quiet : Bool
  /-- When to print in colour -/
  colors : ColorMode
  deriving Repr, DecidableEq

/-- What the arguments ask for. -/
inductive Request where
  /-- A run. -/
  | run (settings : Settings)
  /-- The manual page. -/
  | help
  /-- The version. -/
  | version
  deriving Repr, DecidableEq

/-- The arguments that can be given. -/
inductive Argument where
  /-- The directory to scan. -/
  | root
  /-- Whether to only check. -/
  | check
  /-- Whether to show diffs. -/
  | showDiff
  /-- Where to write the report document. -/
  | report
  /-- More output. -/
  | verbose
  /-- Errors only. -/
  | quiet
  /-- When to print in colour. -/
  | colors
  /-- The manual page. -/
  | help
  /-- The version. -/
  | version
  deriving Repr, DecidableEq

namespace Argument

/-- An argument as named in messages. -/
def shown : Argument → Text
  | .root => "[ROOT]".toList
  | .check => "--check".toList
  | .showDiff => "--show-diff".toList
  | .report => "--report-json <OUTPUT>".toList
  | .verbose => "--verbose...".toList
  | .quiet => "--quiet".toList
  | .colors => "--colors [<WHEN>]".toList
  | .help => "--help".toList
  | .version => "--version".toList

/-- The option with a long name. -/
def ofLong? (name : Text) : Option Argument :=
  [("check", Argument.check), ("show-diff", .showDiff), ("report-json", .report),
    ("verbose", .verbose), ("quiet", .quiet), ("colors", .colors), ("help", .help),
    ("version", .version)].findSome? fun (long, argument) =>
      if long.toList = name then some argument else none

/-- The option with a short name. -/
def ofShort? (c : Char) : Option Argument :=
  [('v', Argument.verbose), ('q', .quiet), ('h', .help), ('V', .version)].lookup c

end Argument

/-- Why arguments are refused. -/
inductive UsageError where
  /-- There is no such argument. -/
  | unknown (argument : Text)
  /-- A value is missing or empty. -/
  | missingValue (argument : Argument)
  /-- A value is none of those known. -/
  | invalidValue (value : Text) (argument : Argument)
  /-- An argument is given twice. -/
  | repeated (argument : Argument)
  /-- Two arguments exclude each other; the first one given comes first. -/
  | conflict (first second : Argument)
  /-- A value is given to an option that takes none. -/
  | tooManyValues (value : Text) (argument : Argument)
  deriving Repr, DecidableEq

/-- A text in single quotes. -/
def quoted (text : Text) : Text := '\'' :: text ++ ['\'']

/-- The message for refused arguments. What was given is shown without control sequences. -/
def UsageError.message (manner : Console.Manner) (e : UsageError) : Text :=
  "error: ".toList ++
    match e with
    | .unknown argument =>
      "unexpected argument ".toList ++ quoted (Console.plain manner argument) ++ " found".toList
    | .missingValue argument =>
      "a value is required for ".toList ++ quoted argument.shown ++ " but none was supplied".toList
    | .invalidValue value argument =>
      "invalid value ".toList ++ quoted (Console.plain manner value) ++ " for ".toList
        ++ quoted argument.shown
    | .repeated argument =>
      "the argument ".toList ++ quoted argument.shown ++ " cannot be used multiple times".toList
    | .conflict first second =>
      "the argument ".toList ++ quoted first.shown ++ " cannot be used with ".toList
        ++ quoted second.shown
    | .tooManyValues value argument =>
      "unexpected value ".toList ++ quoted (Console.plain manner value) ++ " for ".toList
        ++ quoted argument.shown ++ " found; no more were expected".toList

/-- An argument whose value is not looked at yet. -/
inductive Waiting where
  /-- No argument waits. -/
  | nothing
  /-- The root waits. -/
  | root (value : Path)
  /-- The report option waits, for a value or with one. -/
  | report (value : Option Path)
  /-- The colour option waits, for a value or with one. -/
  | colors (value : Option Path)
  deriving Repr, DecidableEq

/-- The arguments read so far. -/
structure Reading where
  /-- The root -/
  root : Option Path
  /-- Whether a root was given, waiting or not -/
  rootGiven : Bool
  /-- Whether to only check -/
  check : Bool
  /-- Whether to show diffs -/
  showDiff : Bool
  /-- The path of the report document -/
  report : Option Path
  /-- The colour mode -/
  colors : Option ColorMode
  /-- The number of verbose flags, up to 255 -/
  verbose : Nat
  /-- Whether the quiet flag was given -/
  quiet : Bool
  /-- Whether a verbose flag was given after the quiet one -/
  verboseLast : Bool
  /-- The argument whose value is not looked at yet -/
  waiting : Waiting
  deriving Repr, DecidableEq

namespace Reading

/-- Nothing read yet. -/
def start : Reading := ⟨none, false, false, false, none, none, 0, false, false, .nothing⟩

/-- Looks at the value that waits. -/
def settle (reading : Reading) : Except UsageError Reading :=
  match reading.waiting with
  | .nothing => .ok reading
  | .root value =>
    if value.bytes.isEmpty then .error (.missingValue .root)
    else .ok { reading with root := some value, waiting := .nothing }
  | .report none => .error (.missingValue .report)
  | .report (some value) =>
    if reading.report.isSome then .error (.repeated .report)
    else if value.bytes.isEmpty then .error (.missingValue .report)
    else .ok { reading with report := some value, waiting := .nothing }
  | .colors none =>
    if reading.colors.isSome then .error (.repeated .colors)
    else .ok { reading with colors := some .always, waiting := .nothing }
  | .colors (some value) =>
    if reading.colors.isSome then .error (.repeated .colors)
    else if value.bytes.isEmpty then .error (.missingValue .colors)
    else
      match (Utf8.decode? value.bytes).bind ColorMode.ofName? with
      | some mode => .ok { reading with colors := some mode, waiting := .nothing }
      | none => .error (.invalidValue value.display .colors)

/-- What one option leads to. -/
abbrev Outcome := Except UsageError (Reading ⊕ Request)

/-- Takes an option without a value. What waits is settled first. -/
def takeFlag (reading : Reading) (argument : Argument) : Outcome := do
  let reading ← reading.settle
  match argument with
  | .check =>
    if reading.check then throw (.repeated .check)
    return .inl { reading with check := true }
  | .showDiff =>
    if reading.showDiff then throw (.repeated .showDiff)
    return .inl { reading with showDiff := true }
  | .quiet =>
    if reading.quiet then throw (.repeated .quiet)
    return .inl { reading with quiet := true, verboseLast := false }
  | .verbose => return .inl { reading with verbose := min (reading.verbose + 1) 255, verboseLast := true }
  | .help => return .inr .help
  | .version => return .inr .version
  | .report => return .inl { reading with waiting := .report none }
  | .colors => return .inl { reading with waiting := .colors none }
  | .root => return .inl reading

/-- Takes an option with a value behind an equals sign. The value is looked at at once. -/
def takeAttached (reading : Reading) (argument : Argument) (value : Path) : Outcome :=
  match argument with
  | .report => do
    let reading ← reading.settle
    return .inl (← { reading with waiting := .report (some value) }.settle)
  | .colors => do
    let reading ← reading.settle
    return .inl (← { reading with waiting := .colors (some value) }.settle)
  | _ => throw (.tooManyValues value.display argument)

/-- Takes the bytes of a long option, without its dashes. -/
def takeLong (reading : Reading) (bytes : Bytes) : Outcome :=
  let name := bytes.takeWhile (· != '='.toUInt8)
  match (Utf8.decode? name).bind Argument.ofLong? with
  | none => throw (.unknown ('-' :: '-' :: Utf8.decodeLossy name))
  | some argument =>
    match bytes.drop name.length with
    | [] => reading.takeFlag argument
    | _ :: value => reading.takeAttached argument ⟨value⟩

/-- Takes short options that share one dash, one after the other. -/
def takeShort (reading : Reading) : List (Option Char) → Outcome
  | [] => return .inl reading
  | none :: rest => throw (.unknown ('-' :: '\uFFFD' :: rest.map (·.getD '\uFFFD')))
  | some c :: rest =>
    match Argument.ofShort? c with
    | none => throw (.unknown ['-', c])
    | some argument => do
      match ← reading.takeFlag argument with
      | .inl reading => reading.takeShort rest
      | .inr request => return .inr request

/-- Takes an argument that is no option. -/
def takeRoot (reading : Reading) (argument : Path) : Outcome :=
  if reading.rootGiven then throw (.unknown argument.display)
  else do
    let reading ← reading.settle
    return .inl { reading with rootGiven := true, waiting := .root argument }

/-- Takes an argument that does not look like an option: the value of an option that waits
    for one, otherwise the root. -/
def takePlain (reading : Reading) (argument : Path) : Outcome :=
  match reading.waiting with
  | .report none => return .inl { reading with waiting := .report (some argument) }
  | .colors none => return .inl { reading with waiting := .colors (some argument) }
  | _ => reading.takeRoot argument

/-- The settings once all arguments are read. -/
def finish (reading : Reading) : Except UsageError Request := do
  let reading ← reading.settle
  if reading.quiet ∧ 0 < reading.verbose then
    if reading.verboseLast then throw (.conflict .quiet .verbose)
    else throw (.conflict .verbose .quiet)
  return .run
    { root := reading.root, check := reading.check, showDiff := reading.showDiff,
      report := reading.report, verbose := reading.verbose, quiet := reading.quiet,
      colors := reading.colors.getD .auto }

/-- Reads the arguments after a double dash, where none is an option. -/
def readPlain : Reading → List Path → Except UsageError Request
  | reading, [] => reading.finish
  | reading, argument :: rest => do
    match ← reading.takeRoot argument with
    | .inl reading => reading.readPlain rest
    | .inr request => return request

/-- Reads arguments up to a request or a fault. -/
def read : Reading → List Path → Except UsageError Request
  | reading, [] => reading.finish
  | reading, argument :: rest => do
    match argument.bytes with
    | 0x2D :: 0x2D :: [] => reading.readPlain rest
    | 0x2D :: 0x2D :: long =>
      match ← reading.takeLong long with
      | .inl reading => reading.read rest
      | .inr request => return request
    | 0x2D :: b :: short =>
      match ← reading.takeShort (Utf8.scan (b :: short)) with
      | .inl reading => reading.read rest
      | .inr request => return request
    | _ =>
      match ← reading.takePlain argument with
      | .inl reading => reading.read rest
      | .inr request => return request

end Reading

/-- What a list of arguments, without the name of the program, asks for. -/
def Request.ofArguments (arguments : List Path) : Except UsageError Request :=
  Reading.start.read arguments

end LicenseStamp.Command

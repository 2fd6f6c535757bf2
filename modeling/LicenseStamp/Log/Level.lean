import LicenseStamp.Console.Mode
import LicenseStamp.Text.LowerCase

/-! # Log levels

How grave a record is, and which records a run shows unless it is told otherwise.
-/

namespace LicenseStamp.Log

/-- How grave a record is, gravest first. -/
inductive Level where
  /-- The run failed. -/
  | error
  /-- Something may be wrong. -/
  | warn
  /-- A result worth knowing. -/
  | info
  /-- A step of the run. -/
  | debug
  /-- A detail of a step. -/
  | trace
  deriving Repr, DecidableEq

namespace Level

/-- The place of a level, counted from the gravest. -/
def rank : Level → Nat
  | .error => 1
  | .warn => 2
  | .info => 3
  | .debug => 4
  | .trace => 5

/-- The name of a level. -/
def name : Level → Text
  | .error => "error".toList
  | .warn => "warn".toList
  | .info => "info".toList
  | .debug => "debug".toList
  | .trace => "trace".toList

/-- The levels, gravest first. -/
def all : List Level := [.error, .warn, .info, .debug, .trace]

/-- The level with a name, upper and lower case ASCII letters being one. -/
def ofName? (name : Text) : Option Level :=
  all.find? fun level => level.name = Text.lowerAscii name

/-- The level of a run: errors only when it is quiet, otherwise warnings and, for each
    time it was asked to tell more, one level more. -/
def ofFlags (quiet : Bool) (verbose : Nat) : Level :=
  if quiet then .error
  else
    match verbose with
    | 0 => .warn
    | 1 => .info
    | 2 => .debug
    | _ => .trace

/-- The mark in front of a record: the name in capitals, five wide, in the level's colour. -/
def mark (level : Level) : Text :=
  let (code, label) : Nat × String :=
    match level with
    | .error => (31, "ERROR")
    | .warn => (33, " WARN")
    | .info => (32, " INFO")
    | .debug => (34, "DEBUG")
    | .trace => (35, "TRACE")
  escapeCode code ++ label.toList ++ escapeCode 0

end Level

end LicenseStamp.Log

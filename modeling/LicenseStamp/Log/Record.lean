import LicenseStamp.Log.Filter

/-! # Log records

A record has a topic, a level and a message. It is shown on a line of its own behind the
mark of its level; characters that could steer a terminal are shown by their codes.
-/

namespace LicenseStamp.Log

/-- What a record is about. -/
inductive Topic where
  /-- The root of the run. -/
  | root
  /-- The walk through the tree. -/
  | walk
  /-- The choice of files. -/
  | choice
  /-- The processing of files. -/
  | processing
  /-- The command as a whole. -/
  | command
  deriving Repr, DecidableEq

/-- The name of a topic in log filters. -/
def Topic.name : Topic → Text
  | .root => "webheader::workspace".toList
  | .walk => "webheader::processor::file_collector".toList
  | .choice => "webheader::file_filter".toList
  | .processing => "webheader::processor".toList
  | .command => "webheader::cli::run".toList

/-- A record of a log. -/
structure Record where
  /-- What it is about -/
  topic : Topic
  /-- How grave it is -/
  level : Level
  /-- What it says -/
  message : Text
  deriving Repr, DecidableEq

/-- The control characters below U+0080 that are shown by their codes. -/
def maskedControls : List Char := ['\x07', '\x08', '\x0c', '\x1b', '\x7f']

/-- A character of a message as shown. -/
def showChar (c : Char) : Text :=
  let code := c.toNat
  if c ∈ maskedControls then
    ['\\', 'x', Nat.digitChar (code / 16), Nat.digitChar (code % 16)]
  else if 0x80 ≤ code && code ≤ 0x9F then
    ['\\', 'u', '\x7b', Nat.digitChar (code / 16), Nat.digitChar (code % 16), '\x7d']
  else [c]

/-- The line of a record. -/
def Record.line (record : Record) : Text :=
  record.level.mark ++ ' ' :: record.message.flatMap showChar ++ ['\n']

/-- What a filter lets through of a record. -/
def Filter.render (filter : Filter) (record : Record) : Text :=
  if filter.shows record.topic.name record.level then record.line else []

end LicenseStamp.Log

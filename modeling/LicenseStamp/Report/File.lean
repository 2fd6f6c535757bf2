import LicenseStamp.Header.Style
import LicenseStamp.Path.Basic

/-! # File reports

What happened to one file.
-/

namespace LicenseStamp

/-- What a run did to a file, or would do if it only checked. -/
inductive Action where
  /-- A header was added. -/
  | added
  /-- An obsolete header was removed and the header added. -/
  | replaced
  /-- The file carried the header already. -/
  | unchanged
  /-- The file may not receive a header. -/
  | skipped
  deriving Repr, DecidableEq

namespace Action

/-- Whether an action changes the content of a file. -/
def isChange : Action → Bool
  | .added | .replaced => true
  | .unchanged | .skipped => false

/-- The name of an action in reports. -/
def name : Action → Text
  | .added => "added".toList
  | .replaced => "replaced".toList
  | .unchanged => "unchanged".toList
  | .skipped => "skipped".toList

end Action

/-- What happened to one file. -/
structure FileReport where
  /-- The file, as seen from the root of the run -/
  path : Path
  /-- The style of its header, if it may receive one -/
  style : Option HeaderStyle
  /-- What was done -/
  action : Action
  /-- Why the file was skipped, if it was -/
  reason : Option Text
  deriving Repr, DecidableEq

end LicenseStamp

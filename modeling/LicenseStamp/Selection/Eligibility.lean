import LicenseStamp.Header.Style
import LicenseStamp.Selection.Filter

/-! # Eligibility

Whether a file may receive a header, and in which style: skipped names come first, then
skipped directories, then the extension decides.
-/

namespace LicenseStamp

/-- The outcome of the eligibility check for one path. -/
inductive Eligibility where
  /-- The file may receive a header of this style. -/
  | candidate (style : HeaderStyle)
  /-- The file is left alone. -/
  | rejected (reason : Text)
  deriving Repr, DecidableEq

/-- The style that the extension of a path asks for. -/
def Path.style? (path : Path) : Option HeaderStyle :=
  (path.extension?.bind Utf8.decode?).bind HeaderStyle.ofExtension?

namespace Eligibility

/-- The rules for the files below a root; none of them fails. -/
def rules (root : Path) : Filter Empty := .all [.skipFile, .skipDir root]

/-- The eligibility of a file for a run on a root. -/
def classify (root path : Path) : Eligibility :=
  match (rules root).judge path with
  | .ok (.skip reason) => .rejected reason
  | .ok .pass =>
    match path.style? with
    | some style => .candidate style
    | none => .rejected "Unsupported extension".toList

end Eligibility

end LicenseStamp

import LicenseStamp.Header.Obsolete
import LicenseStamp.Header.Style

/-! # Stamping a text

A stamped text is the header, an empty line and the body, with the white space at
its very end replaced by one line feed. The body is the old text without its
obsolete header.
-/

namespace LicenseStamp

/-- A text with its new header. -/
structure Stamped where
  /-- The complete new text -/
  content : Text
  /-- Whether an obsolete header was removed -/
  replaced : Bool
  deriving Repr, DecidableEq

/-- Puts a header above a body and ends the result with a single line feed. -/
def HeaderStyle.compose (style : HeaderStyle) (body : Text) : Text :=
  Text.trimEnd (style.header ++ '\n' :: body) ++ ['\n']

/-- Removes an obsolete header from a text and puts the new one on top. -/
def HeaderStyle.stamp (style : HeaderStyle) (text : Text) : Stamped where
  content := style.compose (Obsolete.strip text)
  replaced := (Obsolete.strip? text).isSome

end LicenseStamp

import LicenseStamp.Text.Utf8

/-! # Text without control sequences

A text as it is shown without a terminal: control characters are left out, and so are the
sequences that would steer a terminal, from the escape character to their end. Layout that
stands in a sequence is shown. A text as a whole takes it for the end of the sequence; a
stream only puts the sequence off, up to the next character that is left out.
-/

namespace LicenseStamp.Console

/-- The part of a text that a character stands in. -/
inductive Part where
  /-- Shown text. -/
  | shown
  /-- Right behind an escape character. -/
  | escape
  /-- Behind an escape character and intermediate characters. -/
  | escapeTail
  /-- A control sequence. -/
  | control
  /-- The head of a device string, with nothing read yet. -/
  | device
  /-- The head of a device string, among its parameters. -/
  | deviceParameters
  /-- The head of a device string, behind its parameters. -/
  | deviceTail
  /-- The body of a string that a string terminator ends. -/
  | body
  /-- A command to the operating system. -/
  | system
  deriving Repr, DecidableEq

/-- Whether a character lies between two others. -/
def isBetween (low high c : Char) : Bool := low ≤ c && c ≤ high

/-- Whether a control character lays out text: a tab, a line end or a page end. -/
def isLayout (c : Char) : Bool := c = '\t' || c = '\n' || c = '\x0c' || c = '\r'

/-- Whether shown text shows a character. Of the control characters those for layout are. -/
def isShown (c : Char) : Bool := (' ' ≤ c && c ≠ '\x7f') || isLayout c

/-- Whether a character holds the byte that ends a string on eight-bit terminals. -/
def endsBody (c : Char) : Bool := (Utf8.encodeChar c).contains 0x9C

/-- The part behind an escape character and the character after it. -/
def afterEscape (c : Char) : Part :=
  if isBetween ' ' '/' c then .escapeTail
  else if c = '[' then .control
  else if c = ']' then .system
  else if c = 'P' then .device
  else if c = 'X' || c = '^' || c = '_' then .body
  else if isBetween '0' '~' c then .shown
  else .escape

/-- The part that follows a character of a part that is not shown. -/
def Part.next (part : Part) (c : Char) : Part :=
  if c = '\x1b' then .escape
  else if c = '\x18' || c = '\x1a' then .shown
  else
    match part with
    | .shown => .shown
    | .escape => afterEscape c
    | .escapeTail => if isBetween '0' '~' c then .shown else .escapeTail
    | .control => if isBetween '@' '~' c then .shown else .control
    | .device =>
      if isBetween '@' '~' c then .body
      else if isBetween '0' '?' c then .deviceParameters
      else if isBetween ' ' '/' c then .deviceTail
      else .device
    | .deviceParameters =>
      if isBetween '<' '~' c then .body
      else if isBetween ' ' '/' c then .deviceTail
      else .deviceParameters
    | .deviceTail => if isBetween '0' '~' c then .body else .deviceTail
    | .body => if endsBody c then .shown else .body
    | .system => if c = '\x07' then .shown else .system

/-- Whether layout in a part is shown. -/
def Part.showsLayout : Part → Bool
  | .shown | .escape | .escapeTail | .control => true
  | .device | .deviceParameters | .deviceTail | .body | .system => false

/-- Whether a character that follows a part is shown, when the one before it was not. -/
def Part.shows (part : Part) (c : Char) : Bool :=
  if part = .shown then isShown c else isLayout c && part.showsLayout

/-- How control sequences are left out. -/
inductive Manner where
  /-- Of a text as a whole. -/
  | whole
  /-- Of a stream. -/
  | stream
  deriving Repr, DecidableEq

/-- The part that is put off when a character is shown. A character above ASCII ends it. -/
def Manner.putOff (manner : Manner) (part : Part) (c : Char) : Part :=
  if manner = .stream && c.toNat < 0x80 then part else .shown

/-- What is shown of a text that follows a part. While text is shown, the part is one that
    was put off. -/
def plainFrom (manner : Manner) : Bool → Part → Text → Text
  | _, _, [] => []
  | showing, part, c :: rest =>
    if if showing then isShown c else part.shows c then
      c :: plainFrom manner true (manner.putOff part c) rest
    else plainFrom manner false (part.next c) rest

/-- What is shown of a text. -/
def plain (manner : Manner) (text : Text) : Text := plainFrom manner false .shown text

end LicenseStamp.Console

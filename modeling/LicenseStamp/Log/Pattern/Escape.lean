import LicenseStamp.Log.Pattern.Basic

/-! # Escapes

What a backslash and the characters behind it mean in a pattern: a character, a place
between characters, or a class of bytes.
-/

namespace LicenseStamp.Log.Pattern

/-- The characters that mean something else than themselves. -/
def special : List Char := "\\.+*?()|[]\x7b\x7d^$#&-~".toList

/-- Whether a character stands for itself behind a backslash. -/
def isEscapable (c : Char) : Bool :=
  c ∈ special || (c.toNat < 0x80 && !c.isAlphanum && c ≠ '<' && c ≠ '>')

/-- The letters that stand for control characters behind a backslash. -/
def controls : List (Char × Char) :=
  [('a', '\x07'), ('f', '\x0c'), ('t', '\t'), ('n', '\n'), ('r', '\r'), ('v', '\x0b')]

/-- The character with a code of so many hexadecimal digits, and what follows it. -/
def readCode? (flags : PatternFlags) : Nat → Nat → Text → Option (Char × Text)
  | 0, code, rest =>
    if code < 0xD800 ∨ (0xE000 ≤ code ∧ code < 0x110000) then some (Char.ofNat code, rest) else none
  | digits + 1, code, rest =>
    match flags.skip rest with
    | [] => none
    | c :: later => do readCode? flags digits (16 * code + (← Text.hexDigit? c)) later

/-- Something that stands for itself or for a simple class, behind a backslash or not. -/
inductive Atom where
  /-- A character. -/
  | literal (c : Char)
  /-- A place between characters. -/
  | place
  /-- A class of bytes. -/
  | byteClass
  deriving Repr, DecidableEq

/-- What a backslash and the characters behind it mean, and what follows. Classes of
    characters by property and places at word ends are not known here, other than those
    for bytes. -/
def readEscape? (flags : PatternFlags) : Text → Option (Atom × Text)
  | [] => none
  | 'x' :: rest => do
    let (c, after) ← readCode? flags 2 0 rest
    if flags.characters || c.toNat < 0x80 then return (.literal c, after) else none
  | 'u' :: rest => (readCode? flags 4 0 rest).map fun (c, after) => (.literal c, after)
  | 'U' :: rest => (readCode? flags 8 0 rest).map fun (c, after) => (.literal c, after)
  | c :: rest =>
    if isEscapable c then some (.literal c, rest)
    else if c ∈ "dsw".toList then if flags.characters then none else some (.byteClass, rest)
    else if c ∈ "bB<>".toList then if flags.characters then none else some (.place, rest)
    else if c ∈ "Az".toList then some (.place, rest)
    else (controls.lookup c).map fun control => (.literal control, rest)

end LicenseStamp.Log.Pattern

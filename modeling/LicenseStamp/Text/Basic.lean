/-! # Text and bytes

Text is a list of characters and file content a list of bytes, so that laws about
either are inductions on lists.
-/

namespace LicenseStamp

/-- A text, character by character. -/
abbrev Text := List Char

/-- Raw content, as a disk holds it. -/
abbrev Bytes := List UInt8

namespace Text

/-- Whether `needle` occurs in a text as one contiguous piece. -/
def contains (needle : Text) : Text → Bool
  | [] => needle.isEmpty
  | c :: rest => needle.isPrefixOf (c :: rest) || contains needle rest

/-- Texts one after the other with a separator between two neighbours. -/
def join (separator : Text) : List Text → Text
  | [] => []
  | [piece] => piece
  | piece :: next :: rest => piece ++ separator ++ join separator (next :: rest)

/-- A number in decimal digits. -/
def ofNat (n : Nat) : Text := Nat.toDigits 10 n

/-- The value of a decimal digit. -/
def digit? (c : Char) : Option Nat :=
  if '0' ≤ c ∧ c ≤ '9' then some (c.toNat - '0'.toNat) else none

/-- The value of a hexadecimal digit. -/
def hexDigit? (c : Char) : Option Nat :=
  if '0' ≤ c ∧ c ≤ '9' then some (c.toNat - '0'.toNat)
  else if 'a' ≤ c ∧ c ≤ 'f' then some (c.toNat - 'a'.toNat + 10)
  else if 'A' ≤ c ∧ c ≤ 'F' then some (c.toNat - 'A'.toNat + 10)
  else none

/-- The number that a text of decimal digits spells. -/
def number? (text : Text) : Option Nat :=
  if text.isEmpty then none
  else (text.mapM digit?).map (List.foldl (fun n d => 10 * n + d) 0)

/-- Whether the code point of a character lies in one of some inclusive ranges. -/
def isWithin (ranges : List (Nat × Nat)) (c : Char) : Bool :=
  ranges.any fun (low, high) => low ≤ c.toNat && c.toNat ≤ high

theorem contains_iff {needle text : Text} : contains needle text = true ↔ needle <:+: text := by
  induction text with
  | nil => simp [contains]
  | cons c rest ih => simp [contains, ih, List.infix_cons_iff]

end Text

end LicenseStamp

import LicenseStamp.Json.Basic

/-! # Reading JSON

A reader for JSON documents. Each part of the reader takes a value off the front of a
text and hands on the rest.
-/

namespace LicenseStamp.Json

/-- Whether a character may stand between values. -/
def isGap (c : Char) : Bool := c = ' ' || c = '\t' || c = '\n' || c = '\r'

/-- A text without the gap at its front. -/
def skipGap (text : Text) : Text := text.dropWhile isGap

/-- The value of four hexadecimal digits. -/
def hexValue4? (a b c d : Char) : Option Nat := do
  let a ← Text.hexDigit? a
  let b ← Text.hexDigit? b
  let c ← Text.hexDigit? c
  let d ← Text.hexDigit? d
  return ((a * 16 + b) * 16 + c) * 16 + d

/-- The character of a short escape. -/
def shortEscape? (c : Char) : Option Char :=
  if c = '"' ∨ c = '\\' ∨ c = '/' then some c
  else if c = 'b' then some '\x08'
  else if c = 'f' then some '\x0c'
  else if c = 'n' then some '\n'
  else if c = 'r' then some '\r'
  else if c = 't' then some '\t'
  else none

/-- The character of a code unit that is none of a pair. -/
def single? (code : Nat) : Option Char :=
  if 0xD800 ≤ code ∧ code < 0xE000 then none else some (Char.ofNat code)

/-- The character of a pair of code units. -/
def pair? (high low : Nat) : Option Char :=
  if 0xD800 ≤ high ∧ high < 0xDC00 ∧ 0xDC00 ≤ low ∧ low < 0xE000 then
    some (Char.ofNat (0x10000 + (high - 0xD800) * 0x400 + (low - 0xDC00)))
  else none

/-- A text up to its closing quote, and what follows the quote. -/
def readQuoted : Text → Option (Text × Text)
  | [] => none
  | '"' :: rest => some ([], rest)
  | '\\' :: 'u' :: a :: b :: c :: d :: '\\' :: 'u' :: e :: f :: g :: h :: rest =>
    match (hexValue4? a b c d).bind single? with
    | some first =>
      (readQuoted ('\\' :: 'u' :: e :: f :: g :: h :: rest)).map fun (text, after) =>
        (first :: text, after)
    | none => do
      let high ← hexValue4? a b c d
      let low ← hexValue4? e f g h
      let both ← pair? high low
      let (text, after) ← readQuoted rest
      return (both :: text, after)
  | '\\' :: 'u' :: a :: b :: c :: d :: rest => do
    let code ← hexValue4? a b c d
    let char ← single? code
    let (text, after) ← readQuoted rest
    return (char :: text, after)
  | '\\' :: c :: rest => do
    let char ← shortEscape? c
    let (text, after) ← readQuoted rest
    return (char :: text, after)
  | c :: rest =>
    if c.toNat < 0x20 then none
    else (readQuoted rest).map fun (text, after) => (c :: text, after)

/-- The digits at the front of a text, at least one, and the rest. -/
def readDigits (text : Text) : Option (Text × Text) :=
  let digits := text.takeWhile (fun c => (Text.digit? c).isSome)
  if digits.isEmpty then none else some (digits, text.dropWhile (fun c => (Text.digit? c).isSome))

/-- The whole part of a number: no digit follows a leading zero. -/
def readWhole : Text → Option (Text × Text)
  | '0' :: rest => some (['0'], rest)
  | text => readDigits text

/-- The fraction of a number, if it has one. -/
def readFraction : Text → Option (Text × Text)
  | '.' :: rest => (readDigits rest).map fun (digits, after) => ('.' :: digits, after)
  | text => some ([], text)

/-- The exponent of a number, if it has one. -/
def readExponent : Text → Option (Text × Text)
  | mark :: sign :: rest =>
    if mark = 'e' ∨ mark = 'E' then
      if sign = '+' ∨ sign = '-' then
        (readDigits rest).map fun (digits, after) => (mark :: sign :: digits, after)
      else (readDigits (sign :: rest)).map fun (digits, after) => (mark :: digits, after)
    else some ([], mark :: sign :: rest)
  | text => some ([], text)

/-- A number at the front of a text. -/
def readNumber (text : Text) : Option (Text × Text) := do
  let (sign, text) := if text.head? = some '-' then (['-'], text.drop 1) else ([], text)
  let (whole, text) ← readWhole text
  let (fraction, text) ← readFraction text
  let (exponent, text) ← readExponent text
  return (sign ++ whole ++ fraction ++ exponent, text)

mutual

/-- A value at the front of a text; `fuel` bounds the number of steps. -/
def readValue : Nat → Text → Option (Json × Text)
  | 0, _ => none
  | fuel + 1, text =>
    match skipGap text with
    | 'n' :: 'u' :: 'l' :: 'l' :: rest => some (.null, rest)
    | 't' :: 'r' :: 'u' :: 'e' :: rest => some (.bool true, rest)
    | 'f' :: 'a' :: 'l' :: 's' :: 'e' :: rest => some (.bool false, rest)
    | '"' :: rest => (readQuoted rest).map fun (text, after) => (.string text, after)
    | '[' :: rest =>
      match skipGap rest with
      | ']' :: after => some (.array [], after)
      | _ => (readItems fuel rest).map fun (items, after) => (.array items, after)
    | '\x7b' :: rest =>
      match skipGap rest with
      | '\x7d' :: after => some (.object [], after)
      | _ => (readMembers fuel rest).map fun (members, after) => (.object members, after)
    | text => (readNumber text).map fun (lexeme, after) => (.number lexeme, after)

/-- The items of a list, at least one, and its end. -/
def readItems : Nat → Text → Option (List Json × Text)
  | 0, _ => none
  | fuel + 1, text => do
    let (item, text) ← readValue fuel text
    match skipGap text with
    | ']' :: after => return ([item], after)
    | ',' :: rest =>
      let (items, after) ← readItems fuel rest
      return (item :: items, after)
    | _ => none

/-- The members of an object, at least one, and its end. -/
def readMembers : Nat → Text → Option (List (Text × Json) × Text)
  | 0, _ => none
  | fuel + 1, text => do
    match skipGap text with
    | '"' :: rest =>
      let (name, text) ← readQuoted rest
      match skipGap text with
      | ':' :: text =>
        let (value, text) ← readValue fuel text
        match skipGap text with
        | '\x7d' :: after => return ([(name, value)], after)
        | ',' :: rest =>
          let (members, after) ← readMembers fuel rest
          return ((name, value) :: members, after)
        | _ => none
      | _ => none
    | _ => none

end

/-- The value of a document, if the text is one. Every step of the reader that another
    one follows takes at least one character, so twice the length is enough fuel. -/
def read? (text : Text) : Option Json := do
  let (value, rest) ← readValue (2 * text.length + 2) text
  if (skipGap rest).isEmpty then return value else none

end LicenseStamp.Json

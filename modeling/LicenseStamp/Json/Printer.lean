import LicenseStamp.Json.Basic

/-! # Printed JSON

The indented form of JSON values: a member or an item on each line, two blanks deeper
than the value that holds it; empty lists and objects stay on one line.
-/

namespace LicenseStamp.Json

/-- A hexadecimal digit in lower case. -/
def hexDigit (n : Nat) : Char := Nat.digitChar n

/-- One character inside quotes. Quotes, backslashes and control characters are escaped. -/
def escapeChar (c : Char) : Text :=
  if c = '"' then ['\\', '"']
  else if c = '\\' then ['\\', '\\']
  else if c = '\x08' then ['\\', 'b']
  else if c = '\x0c' then ['\\', 'f']
  else if c = '\n' then ['\\', 'n']
  else if c = '\r' then ['\\', 'r']
  else if c = '\t' then ['\\', 't']
  else if c.toNat < 0x20 then
    ['\\', 'u', '0', '0', hexDigit (c.toNat / 16), hexDigit (c.toNat % 16)]
  else [c]

/-- A text in quotes. -/
def quote (text : Text) : Text := '"' :: text.flatMap escapeChar ++ ['"']

/-- A new line at a depth. -/
def newline (depth : Nat) : Text := '\n' :: List.replicate (2 * depth) ' '

mutual

/-- A value at a depth. -/
def print (depth : Nat) : Json → Text
  | .null => ['n', 'u', 'l', 'l']
  | .bool true => ['t', 'r', 'u', 'e']
  | .bool false => ['f', 'a', 'l', 's', 'e']
  | .number lexeme => lexeme
  | .string text => quote text
  | .array [] => ['[', ']']
  | .array (item :: rest) =>
    '[' :: newline (depth + 1) ++ print (depth + 1) item ++ printItems depth rest
  | .object [] => ['\x7b', '\x7d']
  | .object ((name, value) :: rest) =>
    '\x7b' :: newline (depth + 1) ++ quote name ++ ':' :: ' ' :: print (depth + 1) value
      ++ printMembers depth rest

/-- The later items of a list and its end. -/
def printItems (depth : Nat) : List Json → Text
  | [] => newline depth ++ [']']
  | item :: rest => ',' :: newline (depth + 1) ++ print (depth + 1) item ++ printItems depth rest

/-- The later members of an object and its end. -/
def printMembers (depth : Nat) : List (Text × Json) → Text
  | [] => newline depth ++ ['\x7d']
  | (name, value) :: rest =>
    ',' :: newline (depth + 1) ++ quote name ++ ':' :: ' ' :: print (depth + 1) value
      ++ printMembers depth rest

end

/-- A value as a document of its own. -/
def pretty (value : Json) : Text := print 0 value

end LicenseStamp.Json

import LicenseStamp.Text.Basic
import LicenseStamp.Text.CaseTable

/-! # Lower case

Lower-casing by the full Unicode rules: a letter may become two characters (capital
I with a dot above), and a capital sigma at the end of a word becomes the final small
sigma. A second, plain form of lower-casing leaves all but ASCII letters alone.
-/

namespace LicenseStamp.Text

/-- Lower case among the ASCII letters; every other character stays. -/
def lowerAsciiChar (c : Char) : Char :=
  if 'A' ≤ c ∧ c ≤ 'Z' then Char.ofNat (c.toNat + 32) else c

/-- A text with its ASCII letters in lower case. -/
def lowerAscii (text : Text) : Text := text.map lowerAsciiChar

/-- The small letter of one code point above ASCII, or the code point itself. -/
def lowerCode (code : Nat) : Nat :=
  match CaseTable.capitalRuns.find? fun (first, last, step, _) =>
      first ≤ code && code ≤ last && (code - first) % step == 0 with
  | some (first, _, _, small) => small + (code - first)
  | none => code

/-- Lower case of one character wherever it stands. -/
def lowerChar (c : Char) : Text :=
  if c.toNat < 0x80 then [lowerAsciiChar c]
  else if c = '\u0130' then ['i', '\u0307']
  else [Char.ofNat (lowerCode c.toNat)]

/-- Whether a character is ignored when the end of a word is looked for. -/
def isCaseIgnorable (c : Char) : Bool := isWithin CaseTable.ignorableRanges c

/-- Whether a character has a case. -/
def isCased (c : Char) : Bool := isWithin CaseTable.casedRanges c

/-- Whether the first character that is not ignored is a cased one. -/
def meetsCased (text : Text) : Bool :=
  match text.find? (fun c => !isCaseIgnorable c) with
  | some c => isCased c
  | none => false

/-- Lower case of a text that stands after the characters `before`, nearest first. -/
def lowerAfter (before : Text) : Text → Text
  | [] => []
  | c :: rest =>
    let small :=
      if c = 'Σ' then
        if meetsCased before && !meetsCased rest then ['ς'] else ['σ']
      else lowerChar c
    small ++ lowerAfter (c :: before) rest

/-- A text in lower case. -/
def lower (text : Text) : Text := lowerAfter [] text

end LicenseStamp.Text

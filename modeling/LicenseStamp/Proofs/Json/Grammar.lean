import LicenseStamp.Json.Reader
import LicenseStamp.Proofs.Text.Digits

/-! # The grammar of JSON

Which texts spell a value. A reader and a printer are each related to this grammar alone: what a
printer writes is spelled by it, and what it spells is read as the value.
-/

namespace LicenseStamp.Json

/-- Blanks between two parts of a document, or none. -/
def IsGap (text : Text) : Prop := ∀ c ∈ text, isGap c = true

/-! ## Numbers -/

/-- The whole part of a number: a zero, or digits that do not start with one. -/
inductive IsWhole : Text → Prop where
  | zero : IsWhole ['0']
  | digits {text : Text} (hdigits : Text.IsDigits text) (hfirst : text.head? ≠ some '0') :
      IsWhole text

/-- The fraction of a number, or none. -/
inductive IsFraction : Text → Prop where
  | none : IsFraction []
  | digits {text : Text} (hdigits : Text.IsDigits text) : IsFraction ('.' :: text)

/-- The sign of a number or of an exponent, or none. -/
inductive IsSign (signs : List Char) : Text → Prop where
  | none : IsSign signs []
  | sign {c : Char} (hsign : c ∈ signs) : IsSign signs [c]

/-- The exponent of a number, or none. -/
inductive IsExponent : Text → Prop where
  | none : IsExponent []
  | digits {mark : Char} {sign text : Text} (hmark : mark = 'e' ∨ mark = 'E')
      (hsign : IsSign ['+', '-'] sign) (hdigits : Text.IsDigits text) :
      IsExponent (mark :: (sign ++ text))

/-- A number. -/
inductive IsNumber : Text → Prop where
  | mk {sign whole fraction exponent : Text} (hsign : IsSign ['-'] sign) (hwhole : IsWhole whole)
      (hfraction : IsFraction fraction) (hexponent : IsExponent exponent) :
      IsNumber (sign ++ whole ++ fraction ++ exponent)

theorem isWhole_ofNat (n : Nat) : IsWhole (Text.ofNat n) := by
  by_cases hzero : n = 0
  · subst hzero
    exact .zero
  · exact .digits (Text.isDigits_ofNat n) (Text.head?_ofNat_ne hzero)

/-- A whole part and a fraction are a number. -/
theorem isNumber_append {whole fraction : Text} (hwhole : IsWhole whole)
    (hfraction : IsFraction fraction) : IsNumber (whole ++ fraction) := by
  simpa using IsNumber.mk .none hwhole hfraction .none

theorem isNumber_ofNat (n : Nat) : IsNumber (Text.ofNat n) := by
  simpa using isNumber_append (isWhole_ofNat n) .none

/-! ## Quoted texts -/

/-- The ways to write a character inside quotes. -/
inductive SpellsChar : Char → Text → Prop where
  /-- As it is. -/
  | plain {c : Char} (hcontrol : 0x20 ≤ c.toNat) (hquote : c ≠ '"') (hbackslash : c ≠ '\\') :
      SpellsChar c [c]
  /-- By a backslash and one character. -/
  | short {c mark : Char} (hmark : shortEscape? mark = some c) : SpellsChar c ['\\', mark]
  /-- By its code. -/
  | code {c a₁ a₂ a₃ a₄ : Char} {code : Nat} (hcode : hexValue4? a₁ a₂ a₃ a₄ = some code)
      (hsingle : single? code = some c) : SpellsChar c ['\\', 'u', a₁, a₂, a₃, a₄]
  /-- By a pair of codes. -/
  | pair {c a₁ a₂ a₃ a₄ b₁ b₂ b₃ b₄ : Char} {high low : Nat}
      (hhigh : hexValue4? a₁ a₂ a₃ a₄ = some high) (hlow : hexValue4? b₁ b₂ b₃ b₄ = some low)
      (hpair : pair? high low = some c) :
      SpellsChar c ['\\', 'u', a₁, a₂, a₃, a₄, '\\', 'u', b₁, b₂, b₃, b₄]

/-- The characters of a text, and the quote behind them. -/
inductive SpellsQuoted : Text → Text → Prop where
  | close : SpellsQuoted [] ['"']
  | char {c : Char} {rest piece later : Text} (hchar : SpellsChar c piece)
      (onward : SpellsQuoted rest later) : SpellsQuoted (c :: rest) (piece ++ later)

/-! ## Values -/

mutual

/-- The texts that spell a value. -/
inductive Spells : Json → Text → Prop where
  | null : Spells .null ['n', 'u', 'l', 'l']
  | yes : Spells (.bool true) ['t', 'r', 'u', 'e']
  | no : Spells (.bool false) ['f', 'a', 'l', 's', 'e']
  | number {lexeme : Text} (hnumber : IsNumber lexeme) : Spells (.number lexeme) lexeme
  | string {text quoted : Text} (hquoted : SpellsQuoted text quoted) :
      Spells (.string text) ('"' :: quoted)
  | noItems {gap : Text} (hgap : IsGap gap) : Spells (.array []) ('[' :: (gap ++ [']']))
  | array {items : List Json} {text : Text} (hitems : SpellsItems items text) :
      Spells (.array items) ('[' :: text)
  | noMembers {gap : Text} (hgap : IsGap gap) : Spells (.object []) ('\x7b' :: (gap ++ ['\x7d']))
  | object {members : List (Text × Json)} {text : Text} (hmembers : SpellsMembers members text) :
      Spells (.object members) ('\x7b' :: text)

/-- A value between two gaps. -/
inductive SpellsElement : Json → Text → Prop where
  | mk {value : Json} {before text after : Text} (hbefore : IsGap before) (hvalue : Spells value text)
      (hafter : IsGap after) : SpellsElement value (before ++ text ++ after)

/-- The items of a list, at least one, and the bracket behind them. -/
inductive SpellsItems : List Json → Text → Prop where
  | last {item : Json} {text : Text} (hitem : SpellsElement item text) :
      SpellsItems [item] (text ++ [']'])
  | more {item : Json} {rest : List Json} {text later : Text} (hitem : SpellsElement item text)
      (onward : SpellsItems rest later) : SpellsItems (item :: rest) (text ++ ',' :: later)

/-- A named value between two gaps. -/
inductive SpellsMember : Text × Json → Text → Prop where
  | mk {name before quoted middle text : Text} {value : Json} (hbefore : IsGap before)
      (hname : SpellsQuoted name quoted) (hmiddle : IsGap middle) (hvalue : SpellsElement value text) :
      SpellsMember (name, value) (before ++ '"' :: (quoted ++ middle ++ ':' :: text))

/-- The members of an object, at least one, and the brace behind them. -/
inductive SpellsMembers : List (Text × Json) → Text → Prop where
  | last {member : Text × Json} {text : Text} (hmember : SpellsMember member text) :
      SpellsMembers [member] (text ++ ['\x7d'])
  | more {member : Text × Json} {rest : List (Text × Json)} {text later : Text}
      (hmember : SpellsMember member text) (onward : SpellsMembers rest later) :
      SpellsMembers (member :: rest) (text ++ ',' :: later)

end

end LicenseStamp.Json

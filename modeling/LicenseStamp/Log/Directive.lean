import LicenseStamp.Log.Level
import LicenseStamp.Log.Pattern
import LicenseStamp.Text.Blank
import LicenseStamp.Text.Utf8

/-! # Log directives

A directive is a level for all records, or a target, perhaps with further demands in
brackets, and perhaps a level behind an equals sign. It shows the records up to its level
whose topic starts with the target and that meet the demands.
-/

namespace LicenseStamp.Log

/-- How much of a topic is shown: records up to a level, or none. -/
abbrev Threshold := Option Level

/-- What a directive asks of a record beside its topic. -/
inductive Demand where
  /-- Nothing more. -/
  | nothing
  /-- A field of this name. -/
  | field (name : Text)
  /-- A span around it, with a certain name or with fields of certain values. -/
  | span
  deriving Repr, DecidableEq

/-- Whether a record meets a demand. The only field of a record is its message, and no
    record lies in a span. -/
def Demand.isMet : Demand → Bool
  | .nothing => true
  | .field name => name = "message".toList
  | .span => false

/-- How much a demand asks, for the choice between directives with the same target. -/
def Demand.weight : Demand → Nat
  | .nothing => 0
  | .field _ | .span => 1

/-- One directive of a log filter; an empty target stands for every topic. -/
structure Directive where
  /-- The start of the topics meant -/
  target : Text
  /-- What is asked beside the topic -/
  demand : Demand
  /-- The least grave level shown -/
  threshold : Threshold
  deriving Repr, DecidableEq

namespace Directive

/-- The threshold of a number: zero shows nothing, the others are ranks of levels. -/
def thresholdOfNat? : Nat → Option Threshold
  | 0 => some none
  | n => (Level.all.find? fun level => level.rank = n).map some

/-- The threshold with a name in any case, or with a number, perhaps behind a plus sign. -/
def threshold? (word : Text) : Option Threshold :=
  let digits :=
    match word with
    | '+' :: digits => digits
    | _ => word
  match Text.number? digits with
  | some n => thresholdOfNat? n
  | none =>
    if Text.lowerAscii word = "off".toList then some none else (Level.ofName? word).map some

/-- Whether a text is a decimal number behind a sign. -/
def isSignedNumber : Text → Bool
  | '+' :: text =>
    let isDigit (c : Char) : Bool := (Text.digit? c).isSome
    let whole := text.takeWhile isDigit
    let rest := text.drop whole.length
    let (fraction, rest) : Text × Text :=
      match rest with
      | '.' :: rest => (rest.takeWhile isDigit, rest.dropWhile isDigit)
      | _ => ([], rest)
    let isExponent :=
      match rest with
      | [] => true
      | 'e' :: power | 'E' :: power =>
        let power := if power.head? = some '+' || power.head? = some '-' then power.drop 1 else power
        !power.isEmpty && power.all isDigit
      | _ => false
    (!(whole.isEmpty && fraction.isEmpty) && isExponent)
      || ["inf".toList, "infinity".toList, "nan".toList].contains (Text.lowerAscii text)
  | _ => false

/-- The demand of a field, in a span of a certain name or in any place. A value that is no
    number has to be a pattern. -/
def demand? (inSpan : Bool) (field : Text) : Option Demand :=
  let name := field.takeWhile (· ≠ '=')
  if field.isEmpty then none
  else
    match field.drop name.length with
    | [] => some (if inSpan then .span else .field name)
    | _ :: values =>
      let value := values.takeWhile (· ≠ '=')
      if isSignedNumber value || isPattern value then some .span else none

/-- The part of a text that starts so many bytes from its start and has so many bytes, if it
    starts and ends between characters. -/
def slice? (text : Text) (start count : Nat) : Option Text :=
  Utf8.decode? (((Utf8.encode text).drop start).take count)

/-- The bytes before a text in a word that ends with it. -/
def offset (word rest : Text) : Nat := (Utf8.encode word).length - (Utf8.encode rest).length

/-- A part of a directive, in front of the rest of its word, as it is read: at the same
    distance from the start of the directive as given, whose blanks the word lacks. -/
def reread? (given word rest part : Text) : Option Text :=
  slice? given (offset word rest) (Utf8.encode part).length

/-- The demand in brackets, behind the opening one, and what follows them. -/
def readBrackets? (given word inner : Text) : Option (Demand × Text) := do
  let span := inner.takeWhile fun c => c ≠ ']' && c ≠ '\x7b'
  let _ ← reread? given word inner span
  match inner.drop span.length with
  | ']' :: after => return (.span, after)
  | _ :: fields =>
    let field := fields.takeWhile (· ≠ '\x7d')
    match fields.drop field.length with
    | _ :: ']' :: after =>
      return (← demand? (!span.isEmpty) (← reread? given word fields field), after)
    | _ => none
  | [] => none

/-- The threshold behind an equals sign; where nothing stands, all records are shown. -/
def readThreshold? (given word level : Text) : Option Threshold := do
  match ← slice? given (offset word level) (Utf8.encode given).length with
  | [] => return some .trace
  | level => threshold? level

/-- Whether a directive may start with a character, unless it starts with a bracket. -/
def mayStart (c : Char) : Bool := Text.isAlphanumeric c || c = '-' || c = ':' || c = '_'

/-- The directive that a text spells. -/
def ofText? (given : Text) : Option Directive := do
  let word := given.dropWhile Text.isBlank
  let name := word.takeWhile fun c => c ≠ '=' && c ≠ '['
  if name.head?.any (fun c => !mayStart c) then none
  else
    match word.drop name.length with
    | [] =>
      if name.isEmpty then none
      else
        match threshold? given with
        | some threshold => return ⟨[], .nothing, threshold⟩
        | none => return ⟨given, .nothing, some .trace⟩
    | '=' :: level =>
      if name.isEmpty then none
      else return ⟨← reread? given word word name, .nothing, ← readThreshold? given word level⟩
    | _ :: inner =>
      let target ← reread? given word word name
      let (demand, after) ← readBrackets? given word inner
      match after with
      | '=' :: level => return ⟨target, demand, ← readThreshold? given word level⟩
      | _ => if Text.isBlankLine after then return ⟨target, demand, some .trace⟩ else none

/-- Whether a directive is about a record of a topic. -/
def concerns (directive : Directive) (topic : Text) : Bool :=
  directive.target.isPrefixOf topic && directive.demand.isMet

/-- Whether a directive is no more particular than another. -/
def isNoNarrower (a b : Directive) : Bool :=
  a.target.length < b.target.length
    || (a.target.length = b.target.length && a.demand.weight ≤ b.demand.weight)

end Directive

end LicenseStamp.Log

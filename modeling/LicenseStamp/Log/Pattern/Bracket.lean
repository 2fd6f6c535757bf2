import LicenseStamp.Log.Pattern.Escape

/-! # Classes in brackets

A class holds characters, ranges, named classes and further classes. Between them may
stand operators, each of which joins all that stands before it with what follows.
-/

namespace LicenseStamp.Log.Pattern

/-- Names of classes between colons. -/
def classNames : List Text :=
  ["alnum".toList, "alpha".toList, "ascii".toList, "blank".toList, "cntrl".toList,
    "digit".toList, "graph".toList, "lower".toList, "print".toList, "punct".toList,
    "space".toList, "upper".toList, "word".toList, "xdigit".toList]

/-- A class named between colons, behind its opening bracket: whether it is negated, and
    what follows it. -/
def readNamedClass? : Text → Option (Bool × Text)
  | ':' :: rest =>
    let negated := rest.head? = some '^'
    let rest := if negated then rest.drop 1 else rest
    let name := rest.takeWhile (· ≠ ':')
    match rest.drop name.length with
    | ':' :: ']' :: after => if classNames.contains name then some (negated, after) else none
    | _ => none
  | _ => none

/-- Whether a class may be negated. The bytes that a class of bytes lacks spell no text. -/
def allowsNegation (flags : PatternFlags) (negated : Bool) : Bool := !negated || flags.characters

/-- A class that is not closed yet. -/
structure OpenClass where
  /-- The depths of the items since the last operator -/
  items : List Nat
  /-- The depth of what stands before the last operator, if there is one -/
  left : Option Nat
  deriving Repr, DecidableEq

namespace OpenClass

/-- A class with some items that are not nested. -/
def withLiterals (count : Nat) : OpenClass := ⟨List.replicate count 0, none⟩

/-- The class with one more item. -/
def add (depth : Nat) (set : OpenClass) : OpenClass := { set with items := depth :: set.items }

/-- The depth of all that stands in a class. -/
def depth (set : OpenClass) : Nat :=
  match set.left with
  | none => depthTogether set.items
  | some left => max left (depthTogether set.items) + 1

/-- The class with an operator behind all that stands in it. -/
def operator (set : OpenClass) : OpenClass := ⟨[], some set.depth⟩

end OpenClass

/-- The number of dashes in front, and what follows them. -/
def readDashes (flags : PatternFlags) (text : Text) : Nat × Text :=
  match _h : flags.skip text with
  | '-' :: rest =>
    let (more, after) := readDashes flags rest
    (more + 1, after)
  | after => (0, after)
termination_by text.length
decreasing_by
  have := flags.length_skip_le text
  simp only [_h, List.length_cons] at this
  omega

/-- The class that an opening bracket starts, and what follows. Dashes at its front stand
    for themselves, and so does a closing bracket without dashes before it. -/
def readOpening? (flags : PatternFlags) (text : Text) : Option (OpenClass × Text) :=
  let text := flags.skip text
  let negated := text.head? = some '^'
  let (dashes, rest) := readDashes flags (if negated then text.drop 1 else text)
  let bracket := dashes = 0 && rest.head? = some ']'
  if !allowsNegation flags negated then none
  else if (0 < dashes || bracket) && !flags.allowsLiterals then none
  else if bracket then some (.withLiterals 1, rest.drop 1)
  else some (.withLiterals dashes, rest)

/-- Whether an atom may be an item of a class. -/
def isItem (flags : PatternFlags) : Atom → Bool
  | .literal c => flags.allowsLiterals && (flags.characters || c.toNat < 0x80)
  | .byteClass => true
  | .place => false

/-- An item of a class, and what follows it. -/
def readItem? (flags : PatternFlags) : Text → Option (Atom × Text)
  | [] => none
  | '\\' :: rest => (readEscape? flags rest).filter fun (atom, _) => isItem flags atom
  | c :: rest => if isItem flags (.literal c) then some (.literal c, rest) else none

/-- What follows an item of a class or a range between two characters. A dash that stands
    before a closing bracket or another dash makes no range. -/
def afterRange? (flags : PatternFlags) (text : Text) : Option Text := do
  let (first, rest) ← readItem? flags text
  match flags.skip rest with
  | '-' :: later =>
    let next := flags.peek? later
    if next = some ']' || next = some '-' then return '-' :: later
    else
      match first, ← readItem? flags (flags.skip later) with
      | .literal low, (.literal high, after) => if low ≤ high then return after else none
      | _, _ => none
  | rest => return rest

/-- The depth of a class with others around it, innermost first, and what follows the
    outermost; `fuel` bounds the length of the text. -/
def readClass? (flags : PatternFlags) :
    Nat → OpenClass → List OpenClass → Text → Option (Nat × Text)
  | 0, _, _, _ => none
  | fuel + 1, set, outer, text =>
    match flags.skip text with
    | [] => none
    | '[' :: rest =>
      match readNamedClass? rest with
      | some (negated, after) =>
        if allowsNegation flags negated && flags.allowsLiterals then
          readClass? flags fuel (set.add 0) outer after
        else none
      | none => do
        let (inner, after) ← readOpening? flags rest
        readClass? flags fuel inner (set :: outer) after
    | ']' :: rest =>
      match outer with
      | [] => some (set.depth + 1, rest)
      | next :: outer => readClass? flags fuel (next.add (set.depth + 1)) outer rest
    | '&' :: '&' :: rest | '-' :: '-' :: rest | '~' :: '~' :: rest =>
      readClass? flags fuel set.operator outer rest
    | rest => do readClass? flags fuel (set.add 0) outer (← afterRange? flags rest)

/-- The depth of the class that an opening bracket starts, and what follows it. -/
def readBracket? (flags : PatternFlags) (text : Text) : Option (Nat × Text) := do
  let (set, rest) ← readOpening? flags text
  readClass? flags (rest.length + 1) set [] rest

end LicenseStamp.Log.Pattern

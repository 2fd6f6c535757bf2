import LicenseStamp.Log.Pattern.Bracket
import LicenseStamp.Log.Pattern.Group

/-! # Patterns

The values of fields are described by patterns: characters, classes in brackets,
groups, alternatives and repetitions. No record of a run has a field whose value is
compared, so that all there is to know about a pattern is whether it is one: whether it
can be read to its end, and how deep its parts are nested.
-/

namespace LicenseStamp.Log

namespace Pattern

/-- A part of a pattern. -/
structure Part where
  /-- How deep it is nested -/
  depth : Nat
  /-- Whether it can be repeated -/
  repeatable : Bool
  deriving Repr, DecidableEq

/-- A group that is not closed yet, or the pattern as a whole. -/
structure OpenGroup where
  /-- The flags around it -/
  around : PatternFlags
  /-- The depths of the alternatives before the last one -/
  alternatives : List Nat
  /-- The parts of the last alternative, last first -/
  parts : List Part
  deriving Repr, DecidableEq

namespace OpenGroup

/-- A group without parts. -/
def empty (around : PatternFlags) : OpenGroup := ⟨around, [], []⟩

/-- The depth of the last alternative. -/
def lastDepth (group : OpenGroup) : Nat := depthTogether (group.parts.map Part.depth)

/-- The depth of all that stands in a group. -/
def depth (group : OpenGroup) : Nat := depthTogether (group.lastDepth :: group.alternatives)

/-- The group with one more part. -/
def add (part : Part) (group : OpenGroup) : OpenGroup := { group with parts := part :: group.parts }

/-- The group with one more alternative. -/
def branch (group : OpenGroup) : OpenGroup :=
  { group with alternatives := group.lastDepth :: group.alternatives, parts := [] }

/-- The group with its last part repeated. -/
def repeated? (group : OpenGroup) : Option OpenGroup :=
  match group.parts with
  | ⟨depth, true⟩ :: parts => some { group with parts := ⟨depth + 1, true⟩ :: parts }
  | _ => none

end OpenGroup

/-- How far a pattern is read. -/
structure Scan where
  /-- The flags in force -/
  flags : PatternFlags
  /-- The innermost group -/
  group : OpenGroup
  /-- The groups around it, innermost first -/
  outer : List OpenGroup
  /-- The names of groups so far -/
  names : List Text
  deriving Repr, DecidableEq

namespace Scan

/-- Nothing read yet. -/
def start : Scan := ⟨.initial, .empty .initial, [], []⟩

/-- The scan with one more part. -/
def add (part : Part) (scan : Scan) : Scan := { scan with group := scan.group.add part }

/-- The scan behind what an opening bracket starts. No two groups have one name. -/
def open? (scan : Scan) : Opening → Option Scan
  | .flags flags => some { scan.add ⟨0, false⟩ with flags := flags }
  | .group flags name =>
    if name.any scan.names.contains then none
    else
      some
        { flags := flags, group := .empty scan.flags, outer := scan.group :: scan.outer,
          names := name.toList ++ scan.names }

/-- The scan behind the closing bracket of a group. -/
def close? (scan : Scan) : Option Scan :=
  match scan.outer with
  | [] => none
  | next :: outer =>
    some
      { scan with
        flags := scan.group.around
        group := next.add ⟨scan.group.depth + 1, true⟩
        outer := outer }

/-- The scan behind an atom, if the flags allow it. -/
def atom? (scan : Scan) (atom : Atom) : Option Scan :=
  match atom with
  | .literal _ => if scan.flags.allowsLiterals then some (scan.add ⟨0, true⟩) else none
  | .place | .byteClass => some (scan.add ⟨0, true⟩)

/-- The scan behind the first character of a text and what belongs to it, and what
    follows. -/
def next? (scan : Scan) (c : Char) (rest : Text) : Option (Scan × Text) :=
  match c with
  | '(' => do
    let (opening, rest) ← readGroup? scan.flags rest
    return (← scan.open? opening, rest)
  | ')' => scan.close?.map (·, rest)
  | '|' => some ({ scan with group := scan.group.branch }, rest)
  | '[' => (readBracket? scan.flags rest).map fun (depth, rest) => (scan.add ⟨depth, true⟩, rest)
  | '\x7b' => none
  | '?' | '*' | '+' =>
    scan.group.repeated?.map fun group =>
      ({ scan with group := group }, if rest.head? = some '?' then rest.drop 1 else rest)
  | '\\' => do
    let (atom, rest) ← readEscape? scan.flags rest
    return (← scan.atom? atom, rest)
  | '^' | '$' => (scan.atom? .place).map (·, rest)
  | '.' => if scan.flags.characters then some (scan.add ⟨0, true⟩, rest) else none
  | c => (scan.atom? (.literal c)).map (·, rest)

/-- The depth of a pattern of which the given text is still to be read; `fuel` bounds its
    length. -/
def depth? : Nat → Scan → Text → Option Nat
  | 0, _, _ => none
  | fuel + 1, scan, text =>
    match scan.flags.skip text with
    | [] => if scan.outer.isEmpty then some scan.group.depth else none
    | c :: rest => do
      let (scan, rest) ← scan.next? c rest
      depth? fuel scan rest

end Scan

end Pattern

/-- Whether a text is a pattern whose parts are not nested too deep. A brace starts a count,
    which a filter has no room for. -/
def isPattern (text : Text) : Bool :=
  match Pattern.Scan.start.depth? (text.length + 1) text with
  | some depth => depth ≤ Pattern.maxDepth
  | none => false

end LicenseStamp.Log

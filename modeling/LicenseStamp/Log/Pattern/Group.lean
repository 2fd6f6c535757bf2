import LicenseStamp.Log.Pattern.Basic
import LicenseStamp.Text.Alphanumeric

/-! # Groups

A group may have a name or flags of its own. Flags may also stand alone in brackets; they
hold up to the end of the group around them.
-/

namespace LicenseStamp.Log.Pattern

/-- The flags after some flag letters, and what follows the letters. Each letter stands
    once at most, and a dash, behind which letters unset flags, stands before a letter. -/
def readFlags? (flags : PatternFlags) (seen : Text) (on : Bool) : Text → Option (PatternFlags × Text)
  | [] => none
  | c :: rest =>
    if c = ':' ∨ c = ')' then
      if seen.head? = some '-' then none else some (flags, c :: rest)
    else if c ∈ seen || c ∉ "imsUuRx-".toList then none
    else if c = '-' then readFlags? flags (c :: seen) false rest
    else if c = 'i' then readFlags? { flags with anyCase := on } (c :: seen) on rest
    else if c = 'u' then readFlags? { flags with characters := on } (c :: seen) on rest
    else if c = 'x' then readFlags? { flags with spaced := on } (c :: seen) on rest
    else readFlags? flags (c :: seen) on rest

/-- The name of a group, and what follows its closing bracket. -/
def readName? (text : Text) : Option (Text × Text) :=
  let name := text.takeWhile (· ≠ '>')
  match name, text.drop name.length with
  | first :: later, _ :: after =>
    if (first = '_' || Text.isAlphabetic first)
        && later.all (fun c => Text.isAlphanumeric c || c ∈ "_.[]".toList) then
      some (name, after)
    else none
  | _, _ => none

/-- What an opening bracket of a group starts. -/
inductive Opening where
  /-- A group with flags of its own, perhaps a named one. -/
  | group (flags : PatternFlags) (name : Option Text)
  /-- Flags alone. -/
  | flags (flags : PatternFlags)
  deriving Repr, DecidableEq

/-- What an opening bracket starts, and what follows. -/
def readGroup? (flags : PatternFlags) (text : Text) : Option (Opening × Text) :=
  match flags.skip text with
  | '?' :: 'P' :: '<' :: rest | '?' :: '<' :: rest =>
    (readName? rest).map fun (name, after) => (.group flags (some name), after)
  | '?' :: rest => do
    let (inner, after) ← readFlags? flags [] true rest
    match after with
    | ':' :: after => return (.group inner none, after)
    | _ => if rest.head? = some ')' then none else return (.flags inner, after.drop 1)
  | rest => some (.group flags none, rest)

end LicenseStamp.Log.Pattern

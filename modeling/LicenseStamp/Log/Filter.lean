import LicenseStamp.Log.Directive

/-! # Log filters

A log filter is written as directives with commas between them. Of the directives for a
record the most particular one decides: the one with the longest target, and of those
one that asks for a field.
-/

namespace LicenseStamp.Log

/-- The directives of a log filter. -/
abbrev Filter := List Directive

/-- The filter that shows records up to a level. -/
def Filter.upTo (level : Level) : Filter := [⟨[], .nothing, some level⟩]

/-- The filter that a text spells; one without directives asks for errors only. -/
def Filter.parse? (text : Text) : Option Filter := do
  let words := (text.splitOn ',').filter fun word => !word.isEmpty
  match ← words.mapM Directive.ofText? with
  | [] => return .upTo .error
  | directives => return directives

/-- The most particular of the directives for a topic, and of two of a kind the later. -/
def Filter.directiveFor? (filter : Filter) (topic : Text) : Option Directive :=
  (filter.filter (·.concerns topic)).foldl
    (fun best directive =>
      match best with
      | some chosen => if chosen.isNoNarrower directive then some directive else some chosen
      | none => some directive)
    none

/-- Whether records of a level on a topic are shown. -/
def Filter.shows (filter : Filter) (topic : Text) (level : Level) : Bool :=
  match (filter.directiveFor? topic).bind (·.threshold) with
  | some least => level.rank ≤ least.rank
  | none => false

/-- The filter of a run: the one asked for, if it can be read, otherwise that of a level. -/
def Filter.ofRequest (request : Option Text) (level : Level) : Filter :=
  (request.bind Filter.parse?).getD (.upTo level)

end LicenseStamp.Log

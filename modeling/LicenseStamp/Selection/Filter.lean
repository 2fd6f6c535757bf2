import LicenseStamp.Path.Basic

/-! # Filters

A filter lets a path pass, skips it for a reason, or fails. Filters are combined in
trees; the first one that does not let a path pass decides about it.
-/

namespace LicenseStamp

/-- What a filter says about a path. -/
inductive Verdict where
  /-- The path passes. -/
  | pass
  /-- The path is skipped. -/
  | skip (reason : Text)
  deriving Repr, DecidableEq

/-- A tree of filters whose failures are of type `ε`. -/
inductive Filter (ε : Type) where
  /-- A single rule. -/
  | rule (judge : Path → Except ε Verdict)
  /-- Filters asked one after the other. -/
  | all (filters : List (Filter ε))

namespace Filter

variable {ε : Type}

/-- The filter that lets everything pass. -/
instance : Inhabited (Filter ε) := ⟨.all []⟩

mutual

/-- The verdict of a filter on a path. -/
def judge : Filter ε → Path → Except ε Verdict
  | .rule verdict, path => verdict path
  | .all filters, path => judgeAll filters path

/-- The verdict of the first filter that does not let the path pass. -/
def judgeAll : List (Filter ε) → Path → Except ε Verdict
  | [], _ => .ok .pass
  | filter :: rest, path =>
    match judge filter path with
    | .ok .pass => judgeAll rest path
    | decided => decided

end

/-- Names of files that are never touched. -/
def skippedFiles : List Text :=
  ["LICENSE".toList, "LICENSE-COMMERCIAL".toList, "TRADEMARKS.md".toList]

/-- Names of directories that are never entered. -/
def skippedDirs : List Text :=
  ["node_modules".toList, "dist".toList, ".git".toList, ".github".toList]

/-- Whether a directory of this name is never entered. -/
def isSkippedDir (name : Text) : Bool := skippedDirs.contains name

/-- Whether a directory entry has the name of a directory that is never entered. -/
def isSkippedDirName (name : Bytes) : Bool := (Utf8.decode? name).any isSkippedDir

/-- Whether a directory entry has the name of a file that is never touched. -/
def isSkippedFileName (name : Bytes) : Bool := (Utf8.decode? name).any skippedFiles.contains

/-- Skips the license and trademark files. -/
def skipFile : Filter ε :=
  .rule fun path =>
    .ok (if path.fileName?.any isSkippedFileName then .skip "Skip-listed file".toList else .pass)

/-- Whether a component names a directory that is never entered. -/
def isSkippedComponent : Component → Bool
  | .name bytes => isSkippedDirName bytes
  | .root | .here | .up => false

/-- Whether a file lies in a directory that is never entered. Only the part of the path
    below `root` is looked at, or all of it when it does not lie below `root`. -/
def isInSkippedDir (root path : Path) : Bool :=
  let seen := (path.below? root).getD path
  let parent := seen.parent?.getD ⟨[]⟩
  parent.components.any isSkippedComponent

/-- Skips the files in directories that are never entered. -/
def skipDir (root : Path) : Filter ε :=
  .rule fun path =>
    .ok (if isInSkippedDir root path then .skip "Inside skip-listed directory".toList else .pass)

end Filter

end LicenseStamp

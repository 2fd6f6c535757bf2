import LicenseStamp.Tree.Access

/-! # The root of a run

A run scans the directory that was asked for, or the one two levels above the program
when none was. The root is the location of that directory, with all links followed.
-/

namespace LicenseStamp

/-- Why a run has no root. -/
inductive RootError where
  /-- The program lies less than two levels below a directory. -/
  | noAncestor (program : Path)
  /-- The path leads nowhere. -/
  | unresolved (path : Path) (cause : DiskError)
  /-- The path leads to something that is no directory, or that cannot be asked for by its own
      path. -/
  | notADirectory (root : Path)
  deriving Repr, DecidableEq

/-- A text in single quotes. -/
def Path.quoted (path : Path) : Text := '\'' :: path.display ++ ['\'']

/-- The text of an error. -/
def RootError.message : RootError → Text
  | .noAncestor program =>
    "Executable ".toList ++ program.quoted ++ " has no directory two levels above it".toList
  | .unresolved path cause =>
    "Failed to resolve scan root ".toList ++ path.quoted ++ ": ".toList ++ cause.message
  | .notADirectory root => "Scan root ".toList ++ root.quoted ++ " is not a directory".toList

/-- The directory two levels above a program. -/
def rootAbove (program : Path) : Except RootError Path :=
  match program.parent?.bind Path.parent? with
  | some root => if root.bytes.isEmpty then .error (.noAncestor program) else .ok root
  | none => .error (.noAncestor program)

/-- The root of a run on a path: its full path, if that path is one of a directory. -/
def Disk.rootAt (disk : Disk) (path : Path) : Except RootError Path :=
  match disk.resolve path with
  | .error cause => .error (.unresolved path cause)
  | .ok location =>
    if disk.isDir location.path then .ok location.path
    else .error (.notADirectory location.path)

/-- The root of a run that was asked to scan a path, or nothing in particular. -/
def Disk.chooseRoot (disk : Disk) (program : Path) (asked : Option Path) : Except RootError Path :=
  match asked with
  | some path => disk.rootAt path
  | none => (rootAbove program).bind disk.rootAt

end LicenseStamp

import LicenseStamp.Selection.Filter
import LicenseStamp.Tree.Resolve

/-! # Walks

A walk meets the files and links below a directory in the order they are listed, but no
devices. It does not follow links, and it passes by the directories that are never
entered. It breaks off at a directory that cannot be listed.
-/

namespace LicenseStamp

/-- What a walk meets. -/
inductive Sight where
  /-- A regular file. -/
  | file
  /-- A symbolic link. -/
  | link
  /-- A directory that is never entered. -/
  | passed
  deriving Repr, DecidableEq

/-- Something that a walk meets, at its place below the start. -/
structure Visit where
  /-- The names on the way from the start -/
  place : Location
  /-- What is there -/
  sight : Sight
  deriving Repr, DecidableEq

/-- Why a walk breaks off. -/
structure WalkError where
  /-- The directory that cannot be listed -/
  path : Path
  /-- Why it cannot -/
  cause : DiskError
  deriving Repr, DecidableEq

/-- What a walk met, and why it broke off, if it did. -/
structure Walk where
  /-- What it met, in order -/
  visits : List Visit
  /-- Why it broke off -/
  failure : Option WalkError
  deriving Repr, DecidableEq

namespace Walk

/-- A walk that meets one thing. -/
def single (place : Location) (sight : Sight) : Walk := ⟨[⟨place, sight⟩], none⟩

/-- A walk that breaks off at once. -/
def broken (path : Path) (cause : DiskError) : Walk := ⟨[], some ⟨path, cause⟩⟩

/-- A walk, seen from the parent directory of its start. -/
def below (name : Bytes) (walk : Walk) : Walk :=
  { walk with visits := walk.visits.map fun visit => { visit with place := name :: visit.place } }

/-- One walk after another, unless the first one broke off. -/
def andThen (first second : Walk) : Walk :=
  match first.failure with
  | some _ => first
  | none => { second with visits := first.visits ++ second.visits }

end Walk

/-- The walk through the entries of the directory at a path. A directory is listed by its
    path, which may be too long for that. -/
def Node.walk (path : Path) : List (Bytes × Node) → Walk
  | [] => ⟨[], none⟩
  | (name, .file _) :: rest => (Walk.single [name] .file).andThen (walk path rest)
  | (name, .link _) :: rest => (Walk.single [name] .link).andThen (walk path rest)
  | (_, .device _) :: rest => walk path rest
  | (name, .dir entries) :: rest =>
    let first :=
      if Filter.isSkippedDirName name then Walk.single [name] .passed
      else if Disk.maxPath < (path.child name).bytes.length then
        .broken (path.child name) .nameTooLong
      else (walk (path.child name) entries).below name
    first.andThen (walk path rest)

/-- The path of a place below a directory. -/
def Path.descend (path : Path) (place : Location) : Path := place.foldl Path.child path

namespace Disk

/-- Whether a path names a symbolic link. -/
def isLink (disk : Disk) (path : Path) : Bool :=
  match disk.locate path with
  | .ok location =>
    match disk.node? location with
    | some (.link _) => true
    | _ => false
  | .error _ => false

/-- Whether a path leads to a regular file at or below a location. -/
def leadsInside (disk : Disk) (inside : Location) (path : Path) : Bool :=
  match disk.resolve path with
  | .ok location =>
    match disk.node? location with
    | some (.file _) => inside.isPrefixOf location
    | _ => false
  | .error _ => false

/-- The walk from a path. A start that is a link to a directory is met as a link and then
    walked; a start that is a file is all there is to meet. -/
def walk (disk : Disk) (root : Path) : Walk :=
  match disk.find root with
  | .error cause => .broken root cause
  | .ok location =>
    let start : Walk :=
      if disk.isLink root then .single [] .link
      else
        match disk.node? location with
        | some (.file _) => .single [] .file
        | _ => ⟨[], none⟩
    match disk.entries? location with
    | some entries => start.andThen (Node.walk root entries)
    | none => start

/-- Whether a walk collects what it meets: a file itself, or a link to a file at or below
    the start of the walk. -/
def collects (disk : Disk) (root : Path) (visit : Visit) : Bool :=
  match visit.sight with
  | .file => true
  | .link =>
    match disk.resolve root with
    | .ok inside => disk.leadsInside inside (root.descend visit.place)
    | .error _ => false
  | .passed => false

/-- The files that a walk from a path collects, by their own paths. -/
def collect (disk : Disk) (root : Path) : Except WalkError (List Path) :=
  let walk := disk.walk root
  match walk.failure with
  | some cause => .error cause
  | none =>
    .ok ((walk.visits.filter (disk.collects root)).map fun visit => root.descend visit.place)

end Disk

end LicenseStamp

import LicenseStamp.Text.Newline
import LicenseStamp.Tree.Resolve

/-! # Reading and writing

Files are read and written where their path leads. Texts are read with line feeds as
their only line endings. The running program cannot be written, and nothing can be put
into a removed directory.
-/

namespace LicenseStamp

/-- Why a text cannot be read. -/
inductive ReadError where
  /-- The file system refuses. -/
  | disk (cause : DiskError)
  /-- The content is no UTF-8. -/
  | notText
  deriving Repr, DecidableEq

/-- The text of an error. -/
def ReadError.message : ReadError → Text
  | .disk cause => cause.message
  | .notText => "stream did not contain valid UTF-8".toList

/-- The text of a file's content. -/
def Bytes.readText (content : Bytes) : Except ReadError Text :=
  match Utf8.decode? content with
  | some text => .ok (Text.unifyNewlines text)
  | none => .error .notText

namespace Disk

/-- Whether a path leads to a directory. -/
def isDir (disk : Disk) (path : Path) : Bool :=
  match disk.find path with
  | .ok location => (disk.entries? location).isSome
  | .error _ => false

/-- The content of the file that a path leads to. -/
def read (disk : Disk) (path : Path) : Except DiskError Bytes := do
  let location ← disk.find path
  match disk.node? location with
  | some (.file content) => return content
  | some (.device _) => return []
  | some (.link _) => throw .notFound
  | some (.dir _) | none => throw .isADirectory

/-- The text of the file that a path leads to. -/
def readText (disk : Disk) (path : Path) : Except ReadError Text :=
  match disk.read path with
  | .ok content => content.readText
  | .error cause => .error (.disk cause)

/-- The disk with another node at a location. -/
def put (disk : Disk) (location : Location) (node : Node) : Disk :=
  { disk with top := disk.top.set location node }

/-- Writes to the node at a location. -/
def overwrite (disk : Disk) (location : Location) (content : Bytes) : Except DiskError Disk :=
  if disk.running = some location then .error .busy
  else
    match disk.node? location with
    | some (.device full) => if full && !content.isEmpty then .error .noSpace else .ok disk
    | some (.dir _) | none => .error .isADirectory
    | some (.file _) | some (.link _) => .ok (disk.put location (.file content))

/-- Writes a file where a path leads. A missing entry is created if its directory is there,
    also where a link leads to it. -/
def write (disk : Disk) (path : Path) (content : Bytes) : Except DiskError Disk := do
  match ← disk.destination .write path with
  | .found location => disk.overwrite location content
  | .missing parent name rest =>
    if rest.isEmpty && (disk.node? parent).isSome then
      return disk.put (parent ++ [name]) (.file content)
    else throw .notFound
  | .entry _ _ _ => throw .isADirectory
  | .blocked _ _ => throw .notADirectory
  | .tooLong _ => throw .nameTooLong

/-- The place for a new entry at a path, and whether a slash follows it. -/
def placeFor (disk : Disk) (path : Path) : Except DiskError (Location × Bool) := do
  match ← disk.destination .make path with
  | .entry parent name rest =>
    if (disk.node? parent).isNone then throw .notFound
    else if maxName < name.length then throw .nameTooLong
    else if (disk.node? (parent ++ [name])).isSome then throw .occupied
    else return (parent ++ [name], !rest.isEmpty)
  | .found _ => throw .occupied
  | .missing _ _ _ => throw .notFound
  | .blocked _ _ => throw .notADirectory
  | .tooLong _ => throw .nameTooLong

/-- Makes a directory. A slash behind its name does not matter. -/
def makeDir (disk : Disk) (path : Path) : Except DiskError Disk := do
  let (location, _) ← disk.placeFor path
  return disk.put location (.dir [])

/-- Makes the first of some directories, each of which lies in the next, and of the others
    those that it needs. What was made stays when a later one cannot be made. -/
def makeDirChain (disk : Disk) : List Path → Disk × Option DiskError
  | [] => (disk, none)
  | path :: above =>
    if path.bytes.isEmpty then (disk, none)
    else
      match disk.makeDir path with
      | .ok made => (made, none)
      | .error .notFound =>
        match disk.makeDirChain above with
        | (disk, some cause) => (disk, some cause)
        | (disk, none) =>
          match disk.makeDir path with
          | .ok made => (made, none)
          | .error cause => (disk, if disk.isDir path then none else some cause)
      | .error cause => (disk, if disk.isDir path then none else some cause)

/-- A path, its parent, the parent of that and so on, at most `fuel` of them. -/
def ancestors : Nat → Path → List Path
  | 0, _ => []
  | fuel + 1, path =>
    match path.parent? with
    | some parent => path :: ancestors fuel parent
    | none => [path]

/-- Makes a directory and the directories above it that are missing. -/
def makeDirs (disk : Disk) (path : Path) : Disk × Option DiskError :=
  disk.makeDirChain (ancestors (path.bytes.length + 1) path)

/-- Puts a symbolic link at a path. A slash behind its name asks for a directory, which is
    not there. -/
def makeLink (disk : Disk) (path target : Path) : Except DiskError Disk := do
  if target.bytes.contains 0 || path.bytes.contains 0 then throw .zeroByte
  if target.bytes.isEmpty then throw .notFound
  if maxPath < target.bytes.length then throw .nameTooLong
  let (location, slashed) ← disk.placeFor path
  if slashed then throw .notFound
  return disk.put location (.link target)

/-- The disk without the node at a location. -/
def erase (disk : Disk) (location : Location) : Disk :=
  { disk with
    top := disk.top.erase location
    current := disk.current.afterRemovalOf location }

/-- The disk without some entries of the directory at a location. -/
def eraseEntries (disk : Disk) (location : Location) (entries : List (Bytes × Node)) : Disk :=
  entries.foldl (fun disk entry => disk.erase (location ++ [entry.1])) disk

/-- Removes a directory without entries, if a path names it: it cannot end in a dot, in two
    dots, or in a link with a slash behind it. A path that leads nowhere leaves nothing to
    do. -/
def removeEmptyDir (disk : Disk) (path : Path) (location : Location) :
    Disk × Option DiskError :=
  match disk.destination .make path with
  | .ok (.entry parent name _) =>
    if parent ++ [name] = location then (disk.erase location, none)
    else (disk, if (disk.node? (parent ++ [name])).isSome then some .notADirectory else none)
  | .ok (.found _) =>
    let last := (path.steps.filter (· != .slash)).getLast?
    (disk, some (if last = some .up then .notEmpty else .invalid))
  | _ => (disk, none)

/-- Removes a node and all below it; a link is removed itself. The entries of a directory are
    removed first, and they stay removed when the directory itself cannot be. -/
def remove (disk : Disk) (path : Path) : Disk × Option DiskError :=
  match disk.locate path with
  | .error cause => (disk, some cause)
  | .ok location =>
    match disk.entries? location with
    | some entries => (disk.eraseEntries location entries).removeEmptyDir path location
    | none => (disk.erase location, none)

end Disk

end LicenseStamp

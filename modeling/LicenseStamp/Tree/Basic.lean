import LicenseStamp.Path.Basic

/-! # File trees

A file tree holds files, symbolic links, directories and devices. A directory lists its
entries in a fixed order. A location names a node by the names on the way down to it,
without following links.

A disk is a tree with a current directory in it. A current directory that is removed stays
current: it is empty, takes no entry, and is not found again when its name is. So it gets
a location with an empty name in it, which no path spells and where the tree has no node.
-/

namespace LicenseStamp

/-- A node of a file tree. -/
inductive Node where
  /-- A regular file. -/
  | file (content : Bytes)
  /-- A symbolic link. -/
  | link (target : Path)
  /-- A directory with its entries, as listed. -/
  | dir (entries : List (Bytes × Node))
  /-- A device that reads as empty and forgets what is written to it. A full one refuses
      what is written. -/
  | device (full : Bool)

/-- The names on the way from the top of a tree to a node. -/
abbrev Location := List Bytes

namespace Node

/-- The empty directory. -/
instance : Inhabited Node := ⟨.dir []⟩

/-- The node at a location. -/
def get? : Node → Location → Option Node
  | node, [] => some node
  | .dir entries, name :: rest => (entries.lookup name).bind fun node => node.get? rest
  | _, _ :: _ => none

/-- The entries of a directory with another node under a name; a new name is listed last. -/
def setEntry (name : Bytes) (node : Node) : List (Bytes × Node) → List (Bytes × Node)
  | [] => [(name, node)]
  | (other, old) :: rest =>
    if other = name then (name, node) :: rest else (other, old) :: setEntry name node rest

/-- The tree with another node at a location. Only the last name of the location may be
    new; the tree stays as it is when the location leads through no directory. -/
def set : Node → Location → Node → Node
  | _, [], new => new
  | .dir entries, [name], new => .dir (setEntry name new entries)
  | .dir entries, name :: next :: rest, new =>
    match entries.lookup name with
    | some node => .dir (setEntry name (node.set (next :: rest) new) entries)
    | none => .dir entries
  | node, _ :: _, _ => node

/-- The tree without the node at a location. -/
def erase : Node → Location → Node
  | node, [] => node
  | .dir entries, [name] => .dir (entries.filter fun entry => entry.1 != name)
  | .dir entries, name :: next :: rest =>
    match entries.lookup name with
    | some node => .dir (setEntry name (node.erase (next :: rest)) entries)
    | none => .dir entries
  | node, _ :: _ => node

end Node

namespace Location

/-- The path of a location, from the root directory. -/
def path (location : Location) : Path := .ofPieces .root location

/-- The location of a directory after the removal of a node: one that no path spells if the
    directory was that node or below it. -/
def afterRemovalOf (location removed : Location) : Location :=
  if removed.isPrefixOf location then
    removed.dropLast ++ [] :: location.drop removed.length
  else location

end Location

/-- A file tree and the current directory in it. -/
structure Disk where
  /-- The root directory -/
  top : Node
  /-- The location of the current directory -/
  current : Location
  /-- The location of the running program, if it is a file of the tree -/
  running : Option Location := none

/-- Why the file system refuses a request. -/
inductive DiskError where
  /-- There is no such entry. -/
  | notFound
  /-- The entry is there already. -/
  | occupied
  /-- A path leads through something that is no directory. -/
  | notADirectory
  /-- A directory stands where a file is needed. -/
  | isADirectory
  /-- A path leads through too many links. -/
  | tooManyLinks
  /-- A name or a path is too long. -/
  | nameTooLong
  /-- The request makes no sense for its path. -/
  | invalid
  /-- The file is the running program. -/
  | busy
  /-- There is no room for what is written. -/
  | noSpace
  /-- A directory cannot be removed, as it counts as one with entries. -/
  | notEmpty
  /-- A path holds the byte zero. -/
  | zeroByte
  deriving Repr, DecidableEq

namespace DiskError

/-- The text of a system error with its number. -/
def numbered (text : String) (number : Nat) : Text :=
  text.toList ++ " (os error ".toList ++ Text.ofNat number ++ [')']

/-- The text of an error. -/
def message : DiskError → Text
  | .notFound => numbered "No such file or directory" 2
  | .occupied => numbered "File exists" 17
  | .notADirectory => numbered "Not a directory" 20
  | .isADirectory => numbered "Is a directory" 21
  | .invalid => numbered "Invalid argument" 22
  | .busy => numbered "Text file busy" 26
  | .noSpace => numbered "No space left on device" 28
  | .nameTooLong => numbered "File name too long" 36
  | .notEmpty => numbered "Directory not empty" 39
  | .tooManyLinks => numbered "Too many levels of symbolic links" 40
  | .zeroByte => "file name contained an unexpected NUL byte".toList

end DiskError

end LicenseStamp

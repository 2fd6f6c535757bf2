import LicenseStamp.Tree.Basic

/-! # Where a path leads

A path is followed step by step from the root directory or the current one. A link on
the way is replaced by the steps of its target; at most forty links are followed. The
end of the way is a node, or an entry that is missing or not looked at, or a node that
is no directory but has further steps behind it.
-/

namespace LicenseStamp

/-- One step along a path. -/
inductive Step where
  /-- Stay in a directory, by a slash with nothing behind it. -/
  | slash
  /-- Stay in a directory, by a dot. -/
  | stay
  /-- Go to the parent directory. -/
  | up
  /-- Go to an entry of a directory. -/
  | enter (name : Bytes)
  deriving Repr, DecidableEq

/-- The step of one piece of a path. -/
def Step.ofPiece (piece : Bytes) : Step :=
  if piece.isEmpty then .slash
  else if piece = [Path.dot] then .stay
  else if piece = [Path.dot, Path.dot] then .up
  else .enter piece

/-- The steps of a path. A slash at its end is a step too. -/
def Path.steps (path : Path) : List Step := path.split.2.map Step.ofPiece

/-- What a request does with the last entry of its path. -/
inductive LastEntry where
  /-- It uses the node there, where a link leads if there is one. -/
  | use
  /-- It uses the node there too, but asks for each entry on the way by its own full path. -/
  | resolve
  /-- It uses the node there, a link itself too unless a slash follows. -/
  | name
  /-- It puts a file there, or where a link leads. A slash behind the entry asks for a
      directory instead, so that the entry is not looked at. -/
  | write
  /-- It makes a new entry there, so that no link is followed. -/
  | make
  deriving Repr, DecidableEq

/-- Whether the way ends at an entry, before it is looked at, when the given steps follow. -/
def LastEntry.stopsBefore (last : LastEntry) (rest : List Step) : Bool :=
  match last with
  | .use | .resolve | .name => false
  | .write => !rest.isEmpty && rest.all (· == .slash)
  | .make => rest.all (· == .slash)

/-- Whether the way ends at a link, when the given steps follow. -/
def LastEntry.stopsAtLink (last : LastEntry) (rest : List Step) : Bool :=
  last == .name && rest.isEmpty

/-- Where a way ends. -/
inductive Destination where
  /-- At a node. -/
  | found (location : Location)
  /-- At a directory that lacks the next entry, before the given steps. -/
  | missing (parent : Location) (name : Bytes) (rest : List Step)
  /-- At an entry of a directory that is not looked at, before the given steps. -/
  | entry (parent : Location) (name : Bytes) (rest : List Step)
  /-- At a node that is no directory, before the given steps. -/
  | blocked (location : Location) (rest : List Step)
  /-- At a directory that cannot be asked for the next entry, as a name is too long. -/
  | tooLong (parent : Location)
  deriving Repr, DecidableEq

/-- The location of the node at the end of a way. -/
def Destination.location : Destination → Except DiskError Location
  | .found location => .ok location
  | .missing _ _ _ | .entry _ _ _ => .error .notFound
  | .blocked _ _ => .error .notADirectory
  | .tooLong _ => .error .nameTooLong

/-- Where a way leads without following a link. -/
inductive Stretch where
  /-- To its end. -/
  | ended (destination : Destination)
  /-- To a link in a directory, before the given steps. -/
  | link (parent : Location) (target : Path) (rest : List Step)
  deriving Repr, DecidableEq

namespace Disk

/-- How many links are followed on one way. -/
def maxLinks : Nat := 40

/-- How many bytes the name of an entry has at most. -/
def maxName : Nat := 255

/-- How many bytes the path of a request has at most. -/
def maxPath : Nat := 4095

/-- The node at a location. -/
def node? (disk : Disk) (location : Location) : Option Node := disk.top.get? location

/-- The entries of the directory at a location. Where there is no node, there was a directory
    that is removed, and it is empty. -/
def entries? (disk : Disk) (location : Location) : Option (List (Bytes × Node)) :=
  match disk.node? location with
  | none => some []
  | some (.dir entries) => some entries
  | some _ => none

/-- Whether the current directory is removed. -/
def isAdrift (disk : Disk) : Bool := (disk.node? disk.current).isNone

/-- The location where the steps of a path start. -/
def startOf (current : Location) (path : Path) : Location :=
  if path.isAbsolute then [] else current

/-- Whether an entry cannot be asked for on a way, as its name or its path is too long. In a
    removed directory nothing is asked for. -/
def isTooLong (disk : Disk) (last : LastEntry) (here : Location) (name : Bytes) : Bool :=
  (disk.node? here).isSome
    && (maxName < name.length
      || (last == .resolve && maxPath < (Location.path (here ++ [name])).bytes.length))

/-- Follows steps up to their end or to the next link. -/
def walkTo (disk : Disk) (last : LastEntry) : Location → List Step → Stretch
  | here, [] => .ended (.found here)
  | here, step :: rest =>
    match disk.entries? here with
    | none => .ended (.blocked here (step :: rest))
    | some entries =>
      match step with
      | .slash | .stay => disk.walkTo last here rest
      | .up => disk.walkTo last here.dropLast rest
      | .enter name =>
        if last.stopsBefore rest then .ended (.entry here name rest)
        else if disk.isTooLong last here name then .ended (.tooLong here)
        else
          match entries.lookup name with
          | none => .ended (.missing here name rest)
          | some (.link target) =>
            if last.stopsAtLink rest then .ended (.found (here ++ [name]))
            else .link here target rest
          | some _ => disk.walkTo last (here ++ [name]) rest

/-- Follows steps to their end through at most `links` links. -/
def follow (disk : Disk) (last : LastEntry) :
    Nat → Location → List Step → Except DiskError Destination
  | links, here, steps =>
    match disk.walkTo last here steps with
    | .ended destination => .ok destination
    | .link parent target rest =>
      match links with
      | 0 => .error .tooManyLinks
      | links + 1 => disk.follow last links (startOf parent target) (target.steps ++ rest)

/-- The end of the way that a path describes, whatever the length of the path. -/
def way (disk : Disk) (last : LastEntry) (path : Path) : Except DiskError Destination :=
  if path.bytes.isEmpty then .error .notFound
  else if path.bytes.contains 0 then .error .zeroByte
  else disk.follow last maxLinks (startOf disk.current path) path.steps

/-- The end of the way of a request. The path is refused as a whole if it is too long. -/
def destination (disk : Disk) (last : LastEntry) (path : Path) : Except DiskError Destination :=
  if maxPath < path.bytes.length && !path.bytes.contains 0 then .error .nameTooLong
  else disk.way last path

/-- The location that a path stands for, all links followed. It is found entry by entry, so
    that the length of the path itself does not matter. A removed current directory has no
    such location, nor has anything that starts there. -/
def resolve (disk : Disk) (path : Path) : Except DiskError Location :=
  if disk.isAdrift && !path.isAbsolute && !path.bytes.contains 0 then .error .notFound
  else (disk.way .resolve path).bind Destination.location

/-- The location of the node that a request on a path uses, all links followed. -/
def find (disk : Disk) (path : Path) : Except DiskError Location :=
  (disk.destination .use path).bind Destination.location

/-- The location of the node that a path names; a link at its end is that node. -/
def locate (disk : Disk) (path : Path) : Except DiskError Location :=
  (disk.destination .name path).bind Destination.location

end Disk

end LicenseStamp

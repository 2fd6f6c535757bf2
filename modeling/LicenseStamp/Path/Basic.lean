import LicenseStamp.Text.Utf8

/-! # Paths

A path is raw bytes. It is read as an anchor and the pieces between its slashes; empty
pieces and `.` pieces are void, and the other pieces, with the anchor, are the
components of the path. Cutting a path gives a stretch of its own bytes: void
pieces between two kept ones stay, void pieces at the cut go.
-/

namespace LicenseStamp

/-- A path as given, in raw bytes. -/
structure Path where
  /-- The bytes of the path -/
  bytes : Bytes
  deriving Repr, DecidableEq

/-- One step of a path. -/
inductive Component where
  /-- The slash that starts an absolute path. -/
  | root
  /-- The dot that starts a relative path. -/
  | here
  /-- The parent directory. -/
  | up
  /-- An entry of a directory. -/
  | name (bytes : Bytes)
  deriving Repr, DecidableEq

namespace Path

/-- The byte between the pieces of a path. -/
def slash : UInt8 := 0x2F

/-- The byte that stands for this directory, and twice for its parent. -/
def dot : UInt8 := 0x2E

/-- Where a path starts. -/
inductive Anchor where
  /-- At the root directory. -/
  | root
  /-- At the current directory, by a dot. -/
  | here
  /-- At the current directory, without saying so. -/
  | bare
  deriving Repr, DecidableEq

/-- The path that a text spells. -/
def ofText (text : Text) : Path := ⟨Utf8.encode text⟩

/-- A path for reading; bytes that spell no character show as U+FFFD. -/
def display (path : Path) : Text := Utf8.decodeLossy path.bytes

/-- Whether a path starts at the root directory. -/
def isAbsolute (path : Path) : Bool := path.bytes.head? == some slash

/-- Whether a piece adds no component. -/
def isVoid (piece : Bytes) : Bool := piece == [] || piece == [dot]

/-- The anchor of a path and the pieces below it. -/
def split (path : Path) : Anchor × List Bytes :=
  match path.bytes.splitOn slash with
  | [] :: next :: rest => (.root, next :: rest)
  | first :: rest => if first = [dot] then (.here, rest) else (.bare, first :: rest)
  | [] => (.bare, [])

/-- The bytes of pieces with a slash between neighbours. -/
def joinPieces : List Bytes → Bytes
  | [] => []
  | [piece] => piece
  | piece :: next :: rest => piece ++ slash :: joinPieces (next :: rest)

/-- The path of an anchor and pieces. -/
def ofPieces (anchor : Anchor) (pieces : List Bytes) : Path :=
  match anchor with
  | .root => ⟨slash :: joinPieces pieces⟩
  | .bare => ⟨joinPieces pieces⟩
  | .here => ⟨joinPieces ([dot] :: pieces)⟩

/-- Pieces without the void ones at the end. -/
def dropVoidEnd (pieces : List Bytes) : List Bytes :=
  (pieces.reverse.dropWhile isVoid).reverse

/-- The component of a piece that is not void. -/
def ofPiece (piece : Bytes) : Component :=
  if piece = [dot, dot] then .up else .name piece

/-- The components of an anchor. -/
def Anchor.components : Anchor → List Component
  | .root => [.root]
  | .here => [.here]
  | .bare => []

/-- The components of a path. -/
def components (path : Path) : List Component :=
  let (anchor, pieces) := path.split
  anchor.components ++ (pieces.filter (fun piece => !isVoid piece)).map ofPiece

/-- The last component, when it is a name. -/
def fileName? (path : Path) : Option Bytes :=
  match path.components.getLast? with
  | some (.name bytes) => some bytes
  | _ => none

/-- The part of a file name after its last dot. A name whose only dot starts it has none. -/
def extensionOf? (name : Bytes) : Option Bytes :=
  let after := (name.reverse.takeWhile (· != dot)).reverse
  if after.length + 1 < name.length then some after else none

/-- The extension of the last component. -/
def extension? (path : Path) : Option Bytes := path.fileName?.bind extensionOf?

/-- The path without its last component; the root directory and the empty path have none. -/
def parent? (path : Path) : Option Path :=
  let (anchor, pieces) := path.split
  match pieces.reverse.dropWhile isVoid with
  | _ :: before => some (ofPieces anchor (before.dropWhile isVoid).reverse)
  | [] =>
    match anchor with
    | .here => some ⟨[]⟩
    | .root | .bare => none

/-- The pieces left after the given components are taken from the front. -/
def dropPieces : List Bytes → List Bytes → Option (List Bytes)
  | pieces, [] => some pieces
  | [], _ :: _ => none
  | piece :: rest, wanted :: more =>
    if isVoid piece then dropPieces rest (wanted :: more)
    else if piece = wanted then dropPieces rest more
    else none

/-- What is left of a path below `base`, when the components of `base` start its own. -/
def below? (path base : Path) : Option Path :=
  let (anchor, pieces) := path.split
  if base.components.isEmpty then some (ofPieces anchor (dropVoidEnd pieces))
  else
    let (baseAnchor, basePieces) := base.split
    if anchor = baseAnchor then
      (dropPieces pieces (basePieces.filter (fun piece => !isVoid piece))).map fun rest =>
        ofPieces .bare (dropVoidEnd (rest.dropWhile isVoid))
    else none

/-- The path to `path` from `base`: an absolute path stands for itself. -/
def join (base path : Path) : Path :=
  if path.isAbsolute || base.bytes.isEmpty then path
  else if base.bytes.getLast? = some slash then ⟨base.bytes ++ path.bytes⟩
  else ⟨base.bytes ++ slash :: path.bytes⟩

/-- The path of an entry of a directory. -/
def child (base : Path) (name : Bytes) : Path := base.join ⟨name⟩

/-- The text of a component in a path. -/
def Component.bytes : Component → Bytes
  | .root => [slash]
  | .here => [dot]
  | .up => [dot, dot]
  | .name bytes => bytes

/-- The path of some components, each joined to the ones before it. -/
def ofComponents (components : List Component) : Path :=
  components.foldl (fun path component => path.join ⟨Component.bytes component⟩) ⟨[]⟩

end Path

end LicenseStamp

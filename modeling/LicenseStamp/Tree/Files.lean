import LicenseStamp.Tree.Basic

/-! # The files of a tree

All regular files of a tree with their locations, and the files in which one tree
differs from another.
-/

namespace LicenseStamp.Node

mutual

/-- The regular files of a tree. -/
def files : Node → List (Location × Bytes)
  | .file content => [([], content)]
  | .link _ | .device _ => []
  | .dir entries => filesOf entries

/-- The regular files below directory entries. -/
def filesOf : List (Bytes × Node) → List (Location × Bytes)
  | [] => []
  | (name, node) :: rest =>
    (files node).map (fun file => (name :: file.1, file.2)) ++ filesOf rest

end

/-- The content of the regular file at a location. -/
def content? (tree : Node) (location : Location) : Option Bytes :=
  match tree.get? location with
  | some (.file content) => some content
  | _ => none

/-- The files of a tree that another tree lacks or holds with other content. -/
def changesSince (before after : Node) : List (Location × Bytes) :=
  after.files.filter fun file => before.content? file.1 != some file.2

end LicenseStamp.Node

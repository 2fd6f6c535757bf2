import LicenseStamp.Path.Basic

/-! # Order of paths

Paths are compared component by component, whatever voids they are written with. The
root comes first, then the leading dot, then the parent, then names by their bytes; a
path comes before the longer ones that start with it.
-/

namespace LicenseStamp

/-- The order of byte strings, byte by byte. -/
def Bytes.compare : Bytes → Bytes → Ordering
  | [], [] => .eq
  | [], _ :: _ => .lt
  | _ :: _, [] => .gt
  | a :: as, b :: bs => (Ord.compare a b).then (Bytes.compare as bs)

/-- The place of a kind of component in the order. -/
def Component.rank : Component → Nat
  | .root => 0
  | .here => 1
  | .up => 2
  | .name _ => 3

/-- The order of components. -/
def Component.compare : Component → Component → Ordering
  | .name a, .name b => Bytes.compare a b
  | a, b => Ord.compare a.rank b.rank

namespace Path

/-- The order of component lists, the shorter of two first when it starts the other. -/
def compareComponents : List Component → List Component → Ordering
  | [], [] => .eq
  | [], _ :: _ => .lt
  | _ :: _, [] => .gt
  | a :: as, b :: bs => (Component.compare a b).then (compareComponents as bs)

/-- The order of paths. -/
def compare (a b : Path) : Ordering := compareComponents a.components b.components

/-- Whether a path comes no later than another. -/
def le (a b : Path) : Bool := (compare a b).isLE

/-- Paths in order; equal ones keep their places relative to each other. -/
def sort (paths : List Path) : List Path := paths.mergeSort le

/-- Paths in the order of their bytes. -/
def sortByBytes (paths : List Path) : List Path :=
  paths.mergeSort fun a b => (Bytes.compare a.bytes b.bytes).isLE

end Path

end LicenseStamp

import LicenseStamp.Path.Basic

/-! # Relative paths

The path of a file as seen from a directory: what is left below the directory when the
file lies there by its components, otherwise a way up from the directory and down
again, otherwise the path itself.
-/

namespace LicenseStamp.Path

/-- Two lists of components without their longest common start. -/
def dropCommon : List Component → List Component → List Component × List Component
  | a :: as, b :: bs => if a = b then dropCommon as bs else (a :: as, b :: bs)
  | as, bs => (as, bs)

/-- The components that lead from `base` to `path`, both without a common start. A leading
    dot of `base` leads nowhere and a parent step in it cannot be taken back; every
    other component of `base` takes one step up. -/
def way : List Component → List Component → Option (List Component)
  | path, [] => some path
  | [], base => some (base.map fun _ => .up)
  | next :: path, step :: base =>
    match step with
    | .here => (way path base).map (next :: ·)
    | .up => none
    | .root | .name _ => some ((step :: base).map (fun _ => .up) ++ next :: path)

/-- The way from a directory to a path, if both start at the root directory or neither
    does and there is one. -/
def wayFrom? (path base : Path) : Option Path :=
  if path.isAbsolute = base.isAbsolute then
    let (rest, steps) := dropCommon path.components base.components
    (way rest steps).map ofComponents
  else none

/-- A path as seen from a directory. -/
def relativeTo (path base : Path) : Path :=
  match path.below? base with
  | some rest => rest
  | none => (path.wayFrom? base).getD path

end LicenseStamp.Path

import LicenseStamp.Run.Root
import LicenseStamp.Tree.Walk

/-! # Failures

Why a run fails, told from the outermost cause to the innermost.
-/

namespace LicenseStamp

/-- Why a run fails. -/
inductive Failure where
  /-- There is no root. -/
  | root (cause : RootError)
  /-- The walk breaks off. -/
  | walk (root : Path) (cause : WalkError)
  /-- A file cannot be read. -/
  | read (path : Path) (cause : ReadError)
  /-- A file cannot be written. -/
  | write (path : Path) (cause : DiskError)
  /-- The report document cannot be written. -/
  | report (path : Path) (cause : DiskError)
  deriving Repr, DecidableEq

namespace Failure

/-- The messages of a failure, outermost first. -/
def chain : Failure → List Text
  | .root cause =>
    ["Failed to resolve the scan root".toList, cause.message]
      ++ (match cause with
        | .unresolved _ inner => [inner.message]
        | .noAncestor _ | .notADirectory _ => [])
  | .walk start ⟨path, cause⟩ =>
    ["Failed to walk directory: ".toList ++ start.display,
      "IO error for operation on ".toList ++ path.display ++ ": ".toList ++ cause.message,
      cause.message]
  | .read path cause => ["Failed to read file: ".toList ++ path.display, cause.message]
  | .write path cause => ["Failed to write file: ".toList ++ path.display, cause.message]
  | .report path cause => ["Failed to write report to ".toList ++ path.display, cause.message]

/-- All messages of a failure on one line. -/
def message (failure : Failure) : Text := Text.join ": ".toList failure.chain

/-- A cause below the outermost message. The later lines of its text are set in as far as
    its first one. -/
def showCause (number : Option Nat) (cause : Text) : Text :=
  let lead : Text :=
    match number with
    | some n => List.replicate (5 - (Text.ofNat n).length) ' ' ++ Text.ofNat n ++ [':', ' ']
    | none => List.replicate 4 ' '
  let margin : Text := List.replicate (if number.isSome then 7 else 4) ' '
  lead ++ Text.join ('\n' :: margin) (cause.splitOn '\n') ++ ['\n']

/-- What a failed run prints at its end. Causes are numbered if there are two or more. -/
def fatal (failure : Failure) : Text :=
  match failure.chain with
  | [] => []
  | outermost :: causes =>
    "Error: ".toList ++ outermost ++ '\n' ::
      match causes with
      | [] => []
      | [cause] => "\nCaused by:\n".toList ++ showCause none cause
      | causes =>
        "\nCaused by:\n".toList
          ++ (causes.zipIdx.flatMap fun (cause, n) => showCause (some n) cause)

end Failure

end LicenseStamp

import LicenseStamp.Command.Run
import LicenseStamp.Tree.Files

/-! # The program

Reads the tree below the root into memory, runs the command on it, and writes back the
files that changed. All decisions are made by the command.
-/

namespace LicenseStamp.Program

/-- A path as the system takes it. -/
def systemPath (path : Path) : String := String.ofList path.display

/-- A path that the system gives. -/
def pathOf (name : String) : Path := .ofText name.toList

/-- The location that an absolute path without links spells. -/
def locationOf (path : Path) : Location := path.split.2.filter fun piece => !Path.isVoid piece

/-- Reads a node and all below it. A link is read as one to the place where it leads, and
    as one to itself when it leads nowhere. What is no file, link or directory is read as a
    device. -/
partial def load (name : String) : IO Node := do
  let real ← (IO.FS.realPath name).toBaseIO
  let place := (← IO.currentDir) / name
  match (← place.symlinkMetadata).type with
  | .symlink =>
    match real with
    | .ok target => return .link (pathOf target.toString)
    | .error _ => return .link (pathOf name)
  | .dir =>
    let entries ← place.readDir
    let nodes ← entries.toList.mapM fun entry => do
      return ((pathOf entry.fileName).bytes, ← load (place / entry.fileName).toString)
    return .dir nodes
  | .file => return .file (← IO.FS.readBinFile name).data.toList
  | .other => return .device false

/-- A tree with a node at a location and the directories above it. -/
def plant (tree : Node) (location : Location) (node : Node) : Node :=
  let dirs := (List.range location.length).map location.take
  let tree := dirs.foldl
    (fun tree above => if (tree.get? above).isSome then tree else tree.set above (.dir [])) tree
  tree.set location node

/-- The tree with the node that a path leads to, if it leads anywhere. -/
def withPath (tree : Node) (path : Path) : IO Node := do
  match ← (IO.FS.realPath (systemPath path)).toBaseIO with
  | .ok real => return plant tree (locationOf (pathOf real.toString)) (← load real.toString)
  | .error _ => return tree

/-- The tree with the directories that the report document is written through. -/
def withParent (tree : Node) (current : Path) (path : Path) : Node :=
  match (current.join path).parent? with
  | some parent =>
    let location := locationOf parent
    if (tree.get? location).isSome then tree else plant tree location (.dir [])
  | none => tree

/-- The time since the start of the run. -/
def elapsedSince (start : Nat) : IO Duration := do
  return .ofParts 0 ((← IO.monoNanosNow) - start)

/-- Runs the command as the settings ask for and writes back what changed. -/
def run (settings : Command.Settings) : IO UInt32 := do
  let start ← IO.monoNanosNow
  let program := pathOf (← IO.appPath).toString
  let current := pathOf (← IO.currentDir).toString
  let asked := settings.root.orElse fun _ => (rootAbove program).toOption
  let tree ←
    match asked with
    | some path => withPath (.dir []) path
    | none => pure (.dir [])
  let root : Option Path ←
    match asked with
    | some path =>
      match ← (IO.FS.realPath (systemPath path)).toBaseIO with
      | .ok real => pure (some (pathOf real.toString))
      | .error _ => pure asked
    | none => pure none
  let tree := (settings.report.map (withParent tree current)).getD tree
  let disk : Disk :=
    { top := plant tree (locationOf current) ((tree.get? (locationOf current)).getD (.dir [])),
      current := locationOf current, running := some (locationOf program) }
  let settings := { settings with root := root }
  let progress := settings.process program disk
  let filter ← IO.getEnv "RUST_LOG"
  let elapsed ← elapsedSince start
  let around : Command.Surroundings :=
    { program := program, logFilter := filter.map String.toList, elapsed := elapsed,
      clock := ⟨Text.ofNat elapsed.millis, elapsed.rounded⟩,
      outTerminal := ← (← IO.getStdout).isTty, errTerminal := ← (← IO.getStderr).isTty }
  let ending := settings.conclude around progress
  for (location, content) in Node.changesSince disk.top ending.disk.top do
    IO.FS.writeBinFile (systemPath location.path) ⟨content.toArray⟩
  IO.print (String.ofList ending.out)
  IO.eprint (String.ofList ending.err)
  return UInt32.ofNat ending.code

end LicenseStamp.Program

/-- The program: reads the arguments and does what they ask for. -/
def main (args : List String) : IO UInt32 := do
  let arguments := args.map LicenseStamp.Program.pathOf
  match LicenseStamp.Command.Request.ofArguments arguments with
  | .ok (.run settings) => LicenseStamp.Program.run settings
  | _ =>
    let around : LicenseStamp.Command.Surroundings :=
      ⟨⟨[]⟩, none, ⟨0, 0⟩, ⟨[], []⟩, false, false⟩
    let ending := LicenseStamp.Command.execute around arguments { top := .dir [], current := [] }
    IO.print (String.ofList ending.out)
    IO.eprint (String.ofList ending.err)
    return UInt32.ofNat ending.code

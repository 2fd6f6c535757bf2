import LicenseStamp.Tree.Files
import LicenseStamp.Tree.Walk

/-! # Shapes of trees

The shape of a tree is the tree with every file emptied: its names, links and kinds of
nodes. Where a path leads and what a walk collects depends on the shape alone, so two
disks of one shape agree about both.
-/

namespace LicenseStamp

namespace Node

mutual

/-- The tree with every file emptied. -/
def shape : Node → Node
  | .file _ => .file []
  | .link target => .link target
  | .dir entries => .dir (shapeOf entries)
  | .device full => .device full

/-- Directory entries with every file emptied. -/
def shapeOf : List (Bytes × Node) → List (Bytes × Node)
  | [] => []
  | (name, node) :: rest => (name, shape node) :: shapeOf rest

end

theorem lookup_shapeOf (entries : List (Bytes × Node)) (name : Bytes) :
    (shapeOf entries).lookup name = (entries.lookup name).map shape := by
  induction entries with
  | nil => rfl
  | cons entry rest ih =>
      obtain ⟨other, node⟩ := entry
      simp only [shapeOf, List.lookup_cons]
      cases name == other with
      | true => rfl
      | false => exact ih

theorem get?_shape (tree : Node) (location : Location) :
    tree.shape.get? location = (tree.get? location).map shape := by
  induction location generalizing tree with
  | nil => simp only [get?, Option.map_some]
  | cons name rest ih =>
      cases tree with
      | file | link | device => rfl
      | dir entries =>
          simp only [shape, get?, lookup_shapeOf]
          cases entries.lookup name with
          | none => rfl
          | some node => exact ih node

/-- A walk does not look into files. -/
theorem walk_shapeOf (path : Path) (entries : List (Bytes × Node)) :
    Node.walk path (shapeOf entries) = Node.walk path entries := by
  fun_induction Node.walk path entries with
  | case1 => simp only [shapeOf, Node.walk]
  | case2 path name content rest ih => simp only [shapeOf, shape, Node.walk, ih]
  | case3 path name target rest ih => simp only [shapeOf, shape, Node.walk, ih]
  | case4 path name full rest ih => simp only [shapeOf, shape, Node.walk, ih]
  | case5 path name entries rest first ihBelow ih =>
      simp only [shapeOf, shape, Node.walk, ih, ihBelow]
      rfl

end Node

namespace Disk

/-- The disk with every file emptied. -/
def shape (disk : Disk) : Disk := { disk with top := disk.top.shape }

@[simp] theorem current_shape (disk : Disk) : disk.shape.current = disk.current := rfl

@[simp] theorem running_shape (disk : Disk) : disk.shape.running = disk.running := rfl

@[simp] theorem node?_shape (disk : Disk) (location : Location) :
    disk.shape.node? location = (disk.node? location).map Node.shape :=
  Node.get?_shape disk.top location

theorem entries?_shape (disk : Disk) (location : Location) :
    disk.shape.entries? location = (disk.entries? location).map Node.shapeOf := by
  rw [entries?, entries?, node?_shape]
  cases disk.node? location with
  | none => rfl
  | some node => cases node <;> rfl

@[simp] theorem isTooLong_shape (disk : Disk) (last : LastEntry) (here : Location)
    (name : Bytes) : disk.shape.isTooLong last here name = disk.isTooLong last here name := by
  simp only [isTooLong, node?_shape, Option.isSome_map]

theorem walkTo_shape (disk : Disk) (last : LastEntry) (here : Location) (steps : List Step) :
    disk.shape.walkTo last here steps = disk.walkTo last here steps := by
  fun_induction Disk.walkTo disk last here steps with
  | case1 => rfl
  | case2 here step rest hentries =>
      simp only [walkTo, entries?_shape, hentries, Option.map_none]
  | case3 here rest entries hentries ih | case4 here rest entries hentries ih
  | case5 here rest entries hentries ih =>
      simp only [walkTo, entries?_shape, hentries, Option.map_some, ih]
  | case6 here rest entries hentries name hstop =>
      simp only [walkTo, entries?_shape, hentries, Option.map_some, hstop, if_true]
  | case7 here rest entries hentries name hstop hlong =>
      simp only [walkTo, entries?_shape, hentries, Option.map_some, hstop, isTooLong_shape, hlong,
        if_true, Bool.false_eq_true, if_false]
  | case8 here rest entries hentries name hstop hlong hlookup =>
      simp only [walkTo, entries?_shape, hentries, Option.map_some, hstop, isTooLong_shape, hlong,
        Node.lookup_shapeOf, hlookup, Option.map_none, Bool.false_eq_true, if_false]
  | case9 here rest entries hentries name hstop hlong target hlookup hlink =>
      simp only [walkTo, entries?_shape, hentries, Option.map_some, hstop, isTooLong_shape, hlong,
        Node.lookup_shapeOf, hlookup, Node.shape, hlink, Bool.false_eq_true, if_false, if_true]
  | case10 here rest entries hentries name hstop hlong target hlookup hlink =>
      simp only [walkTo, entries?_shape, hentries, Option.map_some, hstop, isTooLong_shape, hlong,
        Node.lookup_shapeOf, hlookup, Node.shape, hlink, Bool.false_eq_true, if_false]
  | case11 here rest entries hentries name hstop hlong node hnode hlookup ih =>
      cases node with
      | link target => exact absurd rfl (hnode target)
      | file | dir | device =>
          simp only [walkTo, entries?_shape, hentries, Option.map_some, hstop, isTooLong_shape,
            hlong, Node.lookup_shapeOf, hlookup, Node.shape, Bool.false_eq_true, if_false, ih]

theorem follow_shape (disk : Disk) (last : LastEntry) (links : Nat) (here : Location)
    (steps : List Step) :
    disk.shape.follow last links here steps = disk.follow last links here steps := by
  fun_induction Disk.follow disk last links here steps with
  | case1 links here steps destination hwalk => rw [follow, walkTo_shape, hwalk]
  | case2 here steps parent target rest hwalk => rw [follow, walkTo_shape, hwalk]
  | case3 here steps parent target rest hwalk links ih => rw [follow, walkTo_shape, hwalk]; exact ih

@[simp] theorem way_shape (disk : Disk) (last : LastEntry) (path : Path) :
    disk.shape.way last path = disk.way last path := by
  simp only [way, follow_shape, current_shape]

@[simp] theorem destination_shape (disk : Disk) (last : LastEntry) (path : Path) :
    disk.shape.destination last path = disk.destination last path := by
  simp only [destination, way_shape]

@[simp] theorem find_shape (disk : Disk) (path : Path) : disk.shape.find path = disk.find path := by
  simp only [find, destination_shape]

@[simp] theorem locate_shape (disk : Disk) (path : Path) :
    disk.shape.locate path = disk.locate path := by
  simp only [locate, destination_shape]

@[simp] theorem isAdrift_shape (disk : Disk) : disk.shape.isAdrift = disk.isAdrift := by
  simp only [isAdrift, node?_shape, current_shape, Option.isNone_map]

@[simp] theorem resolve_shape (disk : Disk) (path : Path) :
    disk.shape.resolve path = disk.resolve path := by
  simp only [resolve, isAdrift_shape, way_shape]

@[simp] theorem isLink_shape (disk : Disk) (path : Path) :
    disk.shape.isLink path = disk.isLink path := by
  simp only [isLink, locate_shape]
  cases disk.locate path with
  | error cause => rfl
  | ok location =>
      simp only [node?_shape]
      cases disk.node? location with
      | none => rfl
      | some node => cases node <;> rfl

@[simp] theorem leadsInside_shape (disk : Disk) (inside : Location) (path : Path) :
    disk.shape.leadsInside inside path = disk.leadsInside inside path := by
  simp only [leadsInside, resolve_shape]
  cases disk.resolve path with
  | error cause => rfl
  | ok location =>
      simp only [node?_shape]
      cases disk.node? location with
      | none => rfl
      | some node => cases node <;> rfl

@[simp] theorem walk_shape (disk : Disk) (root : Path) : disk.shape.walk root = disk.walk root := by
  simp only [walk, find_shape, isLink_shape, node?_shape, entries?_shape]
  cases disk.find root with
  | error cause => rfl
  | ok location =>
      cases hnode : disk.node? location with
      | none => simp only [entries?, hnode, Option.map_some, Option.map_none, Node.shapeOf]
      | some node =>
          cases node with
          | dir entries =>
              simp only [entries?, hnode, Option.map_some, Node.walk_shapeOf, Node.shape]
          | file | link | device => simp only [entries?, hnode, Option.map_some, Option.map_none, Node.shape]

@[simp] theorem collects_shape (disk : Disk) (root : Path) (visit : Visit) :
    disk.shape.collects root visit = disk.collects root visit := by
  simp only [collects, resolve_shape, leadsInside_shape]

/-- What a walk collects depends on the shape of the tree alone. -/
@[simp] theorem collect_shape (disk : Disk) (root : Path) :
    disk.shape.collect root = disk.collect root := by
  have same : disk.shape.collects root = disk.collects root :=
    funext fun visit => collects_shape disk root visit
  simp only [collect, walk_shape, same]

section SameShape

variable {before after : Disk}

theorem running_of_shape (h : after.shape = before.shape) : after.running = before.running := by
  rw [← running_shape after, h, running_shape]

theorem find_of_shape (h : after.shape = before.shape) (path : Path) :
    after.find path = before.find path := by
  rw [← find_shape after, h, find_shape]

theorem collect_of_shape (h : after.shape = before.shape) (root : Path) :
    after.collect root = before.collect root := by
  rw [← collect_shape after, h, collect_shape]

end SameShape

end Disk

end LicenseStamp

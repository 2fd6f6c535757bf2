import LicenseStamp.Proofs.Tree.Shape
import LicenseStamp.Tree.Access

/-! # Writing into a file

A file that gets new content is the only node that changes: every other file keeps its
bytes, and the shape of the tree stays.
-/

namespace LicenseStamp

namespace Node

theorem lookup_setEntry_self (name : Bytes) (node : Node) (entries : List (Bytes × Node)) :
    (setEntry name node entries).lookup name = some node := by
  fun_induction setEntry name node entries with
  | case1 => simp only [List.lookup_cons, BEq.rfl]
  | case2 old rest => simp only [List.lookup_cons, BEq.rfl]
  | case3 other old rest hne ih =>
      have hname : (name == other) = false := beq_false_of_ne (Ne.symm hne)
      simpa only [List.lookup_cons, hname] using ih

theorem lookup_setEntry_of_ne {name other : Bytes} (h : other ≠ name) (node : Node)
    (entries : List (Bytes × Node)) :
    (setEntry name node entries).lookup other = entries.lookup other := by
  fun_induction setEntry name node entries with
  | case1 => simp only [List.lookup_cons, List.lookup_nil, beq_false_of_ne h]
  | case2 old rest => simp only [List.lookup_cons, beq_false_of_ne h]
  | case3 first old rest hne ih =>
      simp only [List.lookup_cons]
      cases other == first with
      | true => rfl
      | false => exact ih

theorem setEntry_setEntry (name : Bytes) (first second : Node) (entries : List (Bytes × Node)) :
    setEntry name second (setEntry name first entries) = setEntry name second entries := by
  fun_induction setEntry name first entries with
  | case1 => simp only [setEntry, if_true]
  | case2 old rest => simp only [setEntry, if_true]
  | case3 other old rest hne ih => simp only [setEntry, if_neg hne, ih]

theorem shapeOf_setEntry {name : Bytes} {old new : Node} {entries : List (Bytes × Node)}
    (hlookup : entries.lookup name = some old) (hshape : new.shape = old.shape) :
    shapeOf (setEntry name new entries) = shapeOf entries := by
  fun_induction setEntry name new entries with
  | case1 => cases hlookup
  | case2 first rest =>
      simp only [List.lookup_cons, BEq.rfl, Option.some.injEq] at hlookup
      simp only [shapeOf, hshape, hlookup]
  | case3 other first rest hne ih =>
      have hname : (name == other) = false := beq_false_of_ne (Ne.symm hne)
      simp only [List.lookup_cons, hname] at hlookup
      simp only [shapeOf, ih hlookup]

theorem get?_cons_eq_some_iff {tree found : Node} {name : Bytes} {rest : Location} :
    tree.get? (name :: rest) = some found ↔
      ∃ entries node, tree = .dir entries ∧ entries.lookup name = some node ∧
        node.get? rest = some found := by
  cases tree with
  | file | link | device => simp [get?]
  | dir entries => simp [get?, Option.bind_eq_some_iff]

/-- Descending along one location and then along another is descending along both. -/
theorem get?_append (tree : Node) (first second : Location) :
    tree.get? (first ++ second) = (tree.get? first).bind fun node => node.get? second := by
  induction first generalizing tree with
  | nil => simp only [List.nil_append, get?, Option.bind_some]
  | cons name rest ih =>
      cases tree with
      | file | link | device => rfl
      | dir entries =>
          simp only [List.cons_append, get?]
          cases entries.lookup name with
          | none => rfl
          | some node => exact ih node

theorem set_dir_of_lookup {entries : List (Bytes × Node)} {name : Bytes} {node : Node}
    (h : entries.lookup name = some node) (rest : Location) (new : Node) :
    (Node.dir entries).set (name :: rest) new =
      .dir (setEntry name (node.set rest new) entries) := by
  cases rest with
  | nil => simp only [set]
  | cons next rest => simp only [set, h]

theorem content?_eq_some_iff {tree : Node} {location : Location} {content : Bytes} :
    tree.content? location = some content ↔ tree.get? location = some (.file content) := by
  unfold content?
  split <;> simp_all

theorem content?_dir (entries : List (Bytes × Node)) (name : Bytes) (rest : Location) :
    (Node.dir entries).content? (name :: rest) =
      (entries.lookup name).bind fun node => node.content? rest := by
  simp only [content?, get?]
  cases entries.lookup name <;> rfl

/-- A file that gets new content is the only one that changes. -/
theorem content?_set {tree : Node} {location : Location} {old : Bytes}
    (h : tree.get? location = some (.file old)) (new : Bytes) (other : Location) :
    (tree.set location (.file new)).content? other =
      if other = location then some new else tree.content? other := by
  induction location generalizing tree other with
  | nil =>
      simp only [get?, Option.some.injEq] at h
      subst h
      cases other <;> simp [set, content?, get?]
  | cons name rest ih =>
      obtain ⟨entries, node, rfl, hlookup, hget⟩ := get?_cons_eq_some_iff.1 h
      rw [set_dir_of_lookup hlookup]
      cases other with
      | nil => simp [content?, get?]
      | cons first more =>
          rw [content?_dir, content?_dir]
          by_cases hname : first = name
          · subst hname
            rw [lookup_setEntry_self, hlookup, Option.bind_some, Option.bind_some, ih hget]
            simp only [List.cons.injEq, true_and]
          · rw [lookup_setEntry_of_ne hname, if_neg fun h => hname (List.cons.inj h).1]

/-- Of two nodes that are put at one location the second one stays. -/
theorem set_set {tree old : Node} {location : Location} (h : tree.get? location = some old)
    (first second : Node) :
    (tree.set location first).set location second = tree.set location second := by
  induction location generalizing tree with
  | nil => cases tree <;> rfl
  | cons name rest ih =>
      obtain ⟨entries, node, rfl, hlookup, hget⟩ := get?_cons_eq_some_iff.1 h
      rw [set_dir_of_lookup hlookup, set_dir_of_lookup (lookup_setEntry_self _ _ _), ih hget,
        setEntry_setEntry, set_dir_of_lookup hlookup]

/-- New content for a file leaves the shape of the tree as it is. -/
theorem shape_set {tree : Node} {location : Location} {old : Bytes}
    (h : tree.get? location = some (.file old)) (new : Bytes) :
    (tree.set location (.file new)).shape = tree.shape := by
  induction location generalizing tree with
  | nil =>
      simp only [get?, Option.some.injEq] at h
      subst h
      rfl
  | cons name rest ih =>
      obtain ⟨entries, node, rfl, hlookup, hget⟩ := get?_cons_eq_some_iff.1 h
      rw [set_dir_of_lookup hlookup]
      simp only [shape, shapeOf_setEntry hlookup (ih hget)]

end Node

namespace Disk

/-- The content of the regular file at a location. -/
def content? (disk : Disk) (location : Location) : Option Bytes := disk.top.content? location

theorem content?_eq_some_iff {disk : Disk} {location : Location} {content : Bytes} :
    disk.content? location = some content ↔ disk.node? location = some (.file content) :=
  Node.content?_eq_some_iff

theorem content?_put {disk : Disk} {location : Location} {old : Bytes}
    (h : disk.content? location = some old) (new : Bytes) (other : Location) :
    (disk.put location (.file new)).content? other =
      if other = location then some new else disk.content? other :=
  Node.content?_set (content?_eq_some_iff.1 h) new other

theorem shape_put {disk : Disk} {location : Location} {old : Bytes}
    (h : disk.content? location = some old) (new : Bytes) :
    (disk.put location (.file new)).shape = disk.shape := by
  simp only [shape, put, Node.shape_set (content?_eq_some_iff.1 h)]

theorem put_put {disk : Disk} {location : Location} {old : Bytes}
    (h : disk.content? location = some old) (first second : Node) :
    (disk.put location first).put location second = disk.put location second := by
  simp only [put, Node.set_set (content?_eq_some_iff.1 h)]

/-- Disks of one shape have their files at the same locations. -/
theorem exists_content?_of_shape {before after : Disk} (h : after.shape = before.shape)
    (location : Location) :
    (∃ content, after.content? location = some content) ↔
      ∃ content, before.content? location = some content := by
  have emptied : ∀ disk : Disk, (∃ content, disk.content? location = some content) ↔
      disk.shape.node? location = some (.file []) := by
    intro disk
    simp only [content?_eq_some_iff, node?_shape]
    cases disk.node? location with
    | none => simp
    | some node => cases node <;> simp [Node.shape]
  rw [emptied after, emptied before, h]

end Disk

end LicenseStamp

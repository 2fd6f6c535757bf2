import LicenseStamp.Proofs.Tree.WellFormed

/-! # Trees with the same files

A tree is its shape and the content of its files. In a well-formed tree no entry hides behind
another one of its name, so two trees of one shape that hold the same bytes at every location
are the same tree.
-/

namespace LicenseStamp

namespace Node

theorem content?_nil_file (content : Bytes) : (Node.file content).content? [] = some content := rfl

mutual

private theorem eq_of_files {first second : Node} (hwf : first.isWellFormed = true)
    (hshape : second.shape = first.shape)
    (hcontent : ∀ location, second.content? location = first.content? location) :
    second = first := by
  cases first with
  | file content =>
      cases second with
      | file other =>
          have hsame := hcontent []
          rw [content?_nil_file, content?_nil_file] at hsame
          rw [Option.some.inj hsame]
      | link | dir | device => cases hshape
  | link target =>
      cases second with
      | link other => exact hshape
      | file | dir | device => cases hshape
  | device full =>
      cases second with
      | device other => exact hshape
      | file | dir | link => cases hshape
  | dir entries =>
      cases second with
      | file | link | device => cases hshape
      | dir others =>
          have hentries : others = entries := by
            refine entries_eq_of_files hwf (Node.dir.inj hshape) fun name rest => ?_
            rw [← content?_dir, ← content?_dir]
            exact hcontent (name :: rest)
          rw [hentries]

private theorem entries_eq_of_files {entries others : List (Bytes × Node)}
    (hwf : areWellFormed entries = true) (hshape : shapeOf others = shapeOf entries)
    (hcontent : ∀ name rest, ((others.lookup name).bind fun node => node.content? rest) =
      (entries.lookup name).bind fun node => node.content? rest) :
    others = entries := by
  cases entries with
  | nil =>
      cases others with
      | nil => rfl
      | cons => cases hshape
  | cons entry rest =>
      cases others with
      | nil => cases hshape
      | cons other more =>
          obtain ⟨name, node⟩ := entry
          obtain ⟨name', node'⟩ := other
          simp only [shapeOf, List.cons.injEq, Prod.mk.injEq] at hshape
          obtain ⟨⟨rfl, hnode⟩, hrest⟩ := hshape
          obtain ⟨-, hname, hwfNode, hwfRest⟩ := areWellFormed_cons hwf
          -- no later entry has the name of the first, so a look-up meets one of the two parts only
          have hname' : more.lookup name' = none := by
            have hlookup := congrArg (List.lookup name') hrest
            rw [lookup_shapeOf, lookup_shapeOf, hname] at hlookup
            simpa using hlookup
          have hfirst : node' = node := by
            refine eq_of_files hwfNode hnode fun location => ?_
            simpa only [List.lookup_cons_self, Option.bind_some] using hcontent name' location
          have hlater : more = rest := by
            refine entries_eq_of_files hwfRest hrest fun other location => ?_
            by_cases hsame : other = name'
            · rw [hsame, hname, hname']
            · have hother := hcontent other location
              simpa only [List.lookup_cons, beq_false_of_ne hsame] using hother
          rw [hfirst, hlater]

end

end Node

namespace Disk

theorem isWellFormed_of_shape {before after : Disk} (h : after.shape = before.shape)
    (hwf : before.top.isWellFormed = true) : after.top.isWellFormed = true := by
  have htop : after.top.shape = before.top.shape := congrArg Disk.top h
  rwa [← Node.isWellFormed_shape, htop, Node.isWellFormed_shape]

/-- Disks of one shape with the same content in every file are the same. -/
theorem eq_of_content? {before after : Disk} (hwf : before.top.isWellFormed = true)
    (hshape : after.shape = before.shape)
    (hcontent : ∀ location, after.content? location = before.content? location) :
    after = before := by
  have htop : after.top = before.top :=
    Node.eq_of_files hwf (congrArg Disk.top hshape) hcontent
  have hcurrent : after.shape.current = before.shape.current := congrArg Disk.current hshape
  have hrunning := running_of_shape hshape
  obtain ⟨top, current, running⟩ := after
  simp only [current_shape] at htop hcurrent hrunning
  rw [htop, hcurrent, hrunning]

/-- New contents for two files may be put in either order. -/
theorem put_comm {disk : Disk} {location other : Location} {old older : Bytes}
    (hwf : disk.top.isWellFormed = true) (hold : disk.content? location = some old)
    (holder : disk.content? other = some older) (hne : other ≠ location) (new newer : Bytes) :
    (disk.put location (.file new)).put other (.file newer) =
      (disk.put other (.file newer)).put location (.file new) := by
  have hshape := shape_put hold new
  have hshape' := shape_put holder newer
  have hold' : (disk.put other (.file newer)).content? location = some old := by
    rw [content?_put holder, if_neg hne.symm, hold]
  have holder' : (disk.put location (.file new)).content? other = some older := by
    rw [content?_put hold, if_neg hne, holder]
  have hcommon : ((disk.put other (.file newer)).put location (.file new)).shape = disk.shape :=
    (shape_put hold' new).trans hshape'
  refine eq_of_content? (isWellFormed_of_shape hcommon hwf) ?_ fun place => ?_
  · rw [shape_put holder' newer, hshape, hcommon]
  · rw [content?_put holder', content?_put hold, content?_put hold', content?_put holder]
    by_cases hplace : place = other
    · rw [if_pos hplace, if_neg (hplace ▸ hne), if_pos hplace]
    · rw [if_neg hplace, if_neg hplace]

end Disk

end LicenseStamp

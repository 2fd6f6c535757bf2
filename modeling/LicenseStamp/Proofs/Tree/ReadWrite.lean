import LicenseStamp.Proofs.Tree.Leads

/-! # Reading and writing the same file

A request to write looks at its path in a stricter way than a request to read. Where a path
leads to a node that is no directory both reach that node, so what was read at a path is
what a write to the path replaces.
-/

namespace LicenseStamp

theorem LastEntry.stopsBefore_write_iff {rest : List Step} :
    LastEntry.write.stopsBefore rest = true ↔ rest ≠ [] ∧ ∀ step ∈ rest, step = Step.slash := by
  cases rest <;> simp [LastEntry.stopsBefore]

namespace Disk

variable {disk : Disk} {path : Path} {goal : Location}

/-- A way to a node that is no directory does not end in slashes. -/
theorem Leads.stopsBefore_write_eq_false {here : Location} {name : Bytes} {rest : List Step}
    (way : disk.Leads here (.enter name :: rest) goal) (hgoal : disk.entries? goal = none) :
    LastEntry.write.stopsBefore rest = false := by
  rw [Bool.eq_false_iff]
  intro hstop
  obtain ⟨hne, hslash⟩ := LastEntry.stopsBefore_write_iff.1 hstop
  have noWay : ∀ middle, ¬ disk.Leads middle rest goal := by
    intro middle tail
    have hdir := tail.isSome_entries?_of_slashes hne hslash
    rw [hgoal] at hdir
    cases hdir
  cases way with
  | enter _ _ _ onward => exact noWay _ onward
  | link _ _ onward =>
      obtain ⟨middle, _, tail⟩ := onward.split
      exact noWay middle tail

theorem walkTo_write {here : Location} {steps : List Step} (way : disk.Leads here steps goal)
    (hgoal : disk.entries? goal = none) :
    disk.walkTo .write here steps = disk.walkTo .use here steps := by
  induction way with
  | arrived => simp only [walkTo]
  | slash hdir _ ih | stay hdir _ ih | up hdir _ ih =>
      obtain ⟨entries, hentries⟩ := Option.isSome_iff_exists.1 hdir
      simp only [walkTo, hentries, ih hgoal]
  | enter hdir hentry hnode onward ih =>
      have hstop := (Leads.enter hdir hentry hnode onward).stopsBefore_write_eq_false hgoal
      simp only [walkTo, hdir, hstop, ih hgoal]
      rfl
  | link hdir hentry onward _ =>
      have hstop := (Leads.link hdir hentry onward).stopsBefore_write_eq_false hgoal
      simp only [walkTo, hdir, hstop, hentry]
      rfl

theorem follow_write {links : Nat} {here : Location} {steps : List Step}
    (h : disk.follow .use links here steps = .ok (.found goal))
    (hgoal : disk.entries? goal = none) :
    disk.follow .write links here steps = .ok (.found goal) := by
  have way := leads_of_follow (by decide) h
  fun_induction Disk.follow disk .use links here steps with
  | case1 links here steps destination hwalk =>
      rw [follow, walkTo_write way hgoal, hwalk]
      exact h
  | case2 => cases h
  | case3 here steps parent target rest hwalk links ih =>
      rw [follow, walkTo_write way hgoal, hwalk]
      exact ih h (leads_of_follow (by decide) h)

/-- A write goes to the node that a read of the same path uses. -/
theorem destination_write_of_find (h : disk.find path = .ok goal)
    (hgoal : disk.entries? goal = none) : disk.destination .write path = .ok (.found goal) := by
  obtain ⟨hlong, hway⟩ := way_of_find h
  obtain ⟨hempty, hzero, hfollow⟩ := follow_of_way hway
  have hempty : path.bytes.isEmpty = false := by simpa using hempty
  simp only [destination, way, hlong, hempty, hzero, follow_write hfollow hgoal, decide_false,
    Bool.false_and, Bool.false_eq_true, if_false]

theorem entries?_of_content? {content : Bytes} (h : disk.content? goal = some content) :
    disk.entries? goal = none := by
  rw [entries?, content?_eq_some_iff.1 h]

theorem write_of_content? {old : Bytes} (hfind : disk.find path = .ok goal)
    (hold : disk.content? goal = some old) (new : Bytes) :
    disk.write path new =
      if disk.running = some goal then .error .busy else .ok (disk.put goal (.file new)) := by
  simp only [write, destination_write_of_find hfind (entries?_of_content? hold), bind, Except.bind,
    overwrite, content?_eq_some_iff.1 hold]

/-- A device forgets what is written to it. -/
theorem write_of_device {full : Bool} (hfind : disk.find path = .ok goal)
    (hnode : disk.node? goal = some (.device full)) {new : Bytes} {after : Disk}
    (h : disk.write path new = .ok after) : after = disk := by
  have hgoal : disk.entries? goal = none := by rw [entries?, hnode]
  simp only [write, destination_write_of_find hfind hgoal, bind, Except.bind, overwrite, hnode] at h
  split at h
  · cases h
  · split at h
    · cases h
    · exact (Except.ok.inj h).symm

/-- A text that is read comes from a file or, empty, from a device. -/
theorem readText_eq_ok {text : Text} (h : disk.readText path = .ok text) :
    ∃ goal, disk.find path = .ok goal ∧
      ((∃ content, disk.content? goal = some content ∧ content.readText = .ok text) ∨
        ∃ full, disk.node? goal = some (.device full)) := by
  unfold readText read at h
  cases hfind : disk.find path with
  | error cause => simp [hfind, bind, Except.bind] at h
  | ok goal =>
      refine ⟨goal, rfl, ?_⟩
      simp only [hfind, bind, Except.bind] at h
      cases hnode : disk.node? goal with
      | none => simp [hnode, throw, throwThe, MonadExceptOf.throw] at h
      | some node =>
          cases node with
          | file content =>
              simp only [hnode, pure, Except.pure] at h
              exact .inl ⟨content, content?_eq_some_iff.2 hnode, h⟩
          | device full => exact .inr ⟨full, rfl⟩
          | link | dir => simp [hnode, throw, throwThe, MonadExceptOf.throw] at h

theorem readText_of_content? {content : Bytes} (hfind : disk.find path = .ok goal)
    (hcontent : disk.content? goal = some content) :
    disk.readText path = content.readText := by
  simp only [readText, read, hfind, bind, Except.bind, content?_eq_some_iff.1 hcontent, pure,
    Except.pure]

end Disk

end LicenseStamp

import LicenseStamp.Proofs.Path.Spelling
import LicenseStamp.Proofs.Tree.Leads
import LicenseStamp.Proofs.Tree.Operations

/-! # Finding a file by its names

Names lead down real directories, and two dots lead back up. So a file below a root is found by
the path of its place, and from another directory by the way up and down. The requests need
names and paths that are short enough.
-/

namespace LicenseStamp

/-- The end of a way that goes on with further steps where it did not arrive. -/
def Destination.before (later : List Step) : Destination → Destination
  | .found location => .found location
  | .missing parent name rest => .missing parent name (rest ++ later)
  | .entry parent name rest => .entry parent name (rest ++ later)
  | .blocked location rest => .blocked location (rest ++ later)
  | .tooLong parent => .tooLong parent

namespace Disk

variable {disk : Disk} {root : Path} {here middle goal inside place common up down : Location}
  {node : Node} {entries : List (Bytes × Node)} {steps : List Step} {links : Nat}

/-- Following steps and then others is following both, unless a link comes first. -/
theorem walkTo_append (disk : Disk) (here : Location) (first second : List Step) :
    disk.walkTo .use here (first ++ second) =
      match disk.walkTo .use here first with
      | .ended (.found middle) => disk.walkTo .use middle second
      | .ended destination => .ended (destination.before second)
      | .link parent target rest => .link parent target (rest ++ second) := by
  have hstop : ∀ rest, LastEntry.use.stopsBefore rest = false := fun _ => rfl
  have hlink : ∀ rest, LastEntry.use.stopsAtLink rest = false := fun _ => rfl
  fun_induction Disk.walkTo disk .use here first with
  | case1 => rfl
  | case2 here step rest hdir => simp only [List.cons_append, walkTo, hdir, Destination.before]
  | case3 here rest entries hdir ih | case4 here rest entries hdir ih
  | case5 here rest entries hdir ih =>
      simp only [List.cons_append, walkTo, hdir, ih]
  | case6 here rest entries hdir name hends => cases hends
  | case7 here rest entries hdir name _ hlong =>
      simp only [List.cons_append, walkTo, hdir, hstop, hlong, Bool.false_eq_true, if_false, if_true,
        Destination.before]
  | case8 here rest entries hdir name _ hlong hentry =>
      simp only [List.cons_append, walkTo, hdir, hstop, hlong, hentry, Bool.false_eq_true, if_false,
        Destination.before]
  | case9 here rest entries hdir name _ _ target hentry hends => cases hends
  | case10 here rest entries hdir name _ hlong target hentry _ =>
      simp only [List.cons_append, walkTo, hdir, hstop, hlong, hentry, hlink, Bool.false_eq_true,
        if_false]
  | case11 here rest entries hdir name _ hlong node hnode hentry ih =>
      simp only [List.cons_append, walkTo, hdir, hstop, hlong, hentry, ih, Bool.false_eq_true,
        if_false]

theorem walkTo_slash (disk : Disk) (here : Location) :
    disk.walkTo .use here [.slash] = .ended (.found here) ∨
      disk.walkTo .use here [.slash] = .ended (.blocked here [.slash]) := by
  rw [walkTo]
  cases disk.entries? here with
  | none => exact .inr rfl
  | some entries => exact .inl (by simp only [walkTo])

/-- A slash at the end of a way that arrives can be left out. -/
theorem follow_of_slash (h : disk.follow .use links here (steps ++ [.slash]) = .ok (.found goal)) :
    disk.follow .use links here steps = .ok (.found goal) := by
  induction links generalizing here steps with
  | zero | succ links ih =>
      rw [follow] at h ⊢
      cases hwalk : disk.walkTo .use here steps with
      | ended destination =>
          cases destination with
          | found middle =>
              rcases disk.walkTo_slash middle with hslash | hslash <;>
                simp only [walkTo_append, hwalk, hslash] at h
              · exact h
              · cases h
          | missing | entry | blocked | tooLong =>
              simp only [walkTo_append, hwalk] at h
              cases h
      | link parent target rest =>
          simp only [walkTo_append, hwalk, ← List.append_assoc] at h
          first
            | cases h
            | exact ih h

/-- Steps without links go on where others arrive. -/
theorem follow_append {destination : Destination}
    (h : disk.follow .use links here steps = .ok (.found middle)) {more : List Step}
    (hmore : disk.walkTo .use middle more = .ended destination) :
    disk.follow .use links here (steps ++ more) = .ok destination := by
  fun_induction Disk.follow disk .use links here steps with
  | case1 links here steps arrived hwalk =>
      obtain rfl := Except.ok.inj h
      rw [follow, walkTo_append, hwalk]
      simp only [hmore]
  | case2 => cases h
  | case3 here steps parent target rest hwalk links ih =>
      rw [follow, walkTo_append, hwalk]
      simp only
      rw [← List.append_assoc]
      exact ih h

/-- Names that are not too long lead down a tree to the node that they name, without a link on the
    way. -/
theorem walkTo_place {last : LastEntry} (hstop : ∀ rest, last.stopsBefore rest = false)
    (hnode : disk.node? (here ++ place) = some node) (hlink : ∀ target, node ≠ .link target)
    (hshort : ∀ above name, above ++ [name] <+: place →
      disk.isTooLong last (here ++ above) name = false) :
    disk.walkTo last here (place.map .enter) = .ended (.found (here ++ place)) := by
  induction place generalizing here with
  | nil => rw [List.map_nil, walkTo, List.append_nil]
  | cons name rest ih =>
      have hget := hnode
      rw [node?, Node.get?_append, Option.bind_eq_some_iff] at hget
      obtain ⟨above, habove, hbelow⟩ := hget
      obtain ⟨entries, next, rfl, hlookup, hrest⟩ := Node.get?_cons_eq_some_iff.1 hbelow
      have hdir : disk.entries? here = some entries := by rw [entries?, node?, habove]
      have hfirst : disk.isTooLong last here name = false := by
        have hname := hshort [] name ⟨rest, rfl⟩
        rwa [List.append_nil] at hname
      have hagain : disk.node? ((here ++ [name]) ++ rest) = some node := by
        simpa only [List.append_assoc, List.singleton_append] using hnode
      have hlater : ∀ middle other, middle ++ [other] <+: rest →
          disk.isTooLong last (here ++ [name] ++ middle) other = false := by
        rintro middle other ⟨more, rfl⟩
        rw [List.append_assoc, List.singleton_append]
        exact hshort (name :: middle) other ⟨more, rfl⟩
      have onward := ih hagain hlater
      rw [List.append_assoc, List.singleton_append] at onward
      cases next with
      | file | dir | device =>
          simp only [List.map_cons, walkTo, hdir, hstop, hfirst, hlookup, onward, Bool.false_eq_true,
            if_false]
      | link target =>
          cases rest with
          | nil => exact absurd (Option.some.inj hrest).symm (hlink target)
          | cons => cases hrest

/-- Short names lead down a tree to the node that they name. -/
theorem walkTo_names (hnode : disk.node? (here ++ place) = some node)
    (hlink : ∀ target, node ≠ .link target) (hnames : ∀ name ∈ place, name.length ≤ maxName) :
    disk.walkTo .use here (place.map .enter) = .ended (.found (here ++ place)) := by
  refine walkTo_place (fun _ => rfl) hnode hlink fun above name hplace => ?_
  have hlength := hnames name (hplace.subset (by simp))
  simp [isTooLong, hlength]

/-- Two dots lead back up from a directory, once for each name. -/
theorem walkTo_ups (hdir : disk.node? (common ++ up) = some (.dir entries)) :
    disk.walkTo .use (common ++ up) (List.replicate up.length .up) = .ended (.found common) := by
  induction hlength : up.length generalizing up entries with
  | zero =>
      obtain rfl := List.length_eq_zero_iff.1 hlength
      rw [List.replicate_zero, walkTo, List.append_nil]
  | succ n ih =>
      rcases List.eq_nil_or_concat up with rfl | ⟨above, last, rfl⟩
      · cases hlength
      · rw [List.concat_eq_append, ← List.append_assoc] at hdir ⊢
        rw [List.concat_eq_append, List.length_append, List.length_singleton,
          Nat.add_right_cancel_iff] at hlength
        have hhere : disk.entries? (common ++ above ++ [last]) = some entries := by
          rw [entries?, hdir]
        obtain ⟨parent, hparent, hbelow⟩ := Option.bind_eq_some_iff.1
          ((Node.get?_append disk.top _ _).symm.trans hdir)
        obtain ⟨others, -, rfl, -, -⟩ := Node.get?_cons_eq_some_iff.1 hbelow
        simp only [List.replicate_succ, walkTo, hhere, List.dropLast_concat]
        exact ih hparent hlength

theorem find_of_follow {path : Path} (hshort : path.bytes.length ≤ maxPath)
    (hne : path.bytes ≠ []) (hzero : 0 ∉ path.bytes)
    (h : disk.follow .use maxLinks (startOf disk.current path) path.steps = .ok (.found goal)) :
    disk.find path = .ok goal := by
  have hlong : decide (maxPath < path.bytes.length) = false := by simpa using hshort
  have hempty : path.bytes.isEmpty = false := by simpa using hne
  have hclean : path.bytes.contains 0 = false := by simpa using hzero
  simp only [find, destination, hlong, way, hempty, hclean, h, Bool.false_and, Bool.false_eq_true,
    if_false]
  rfl

/-- A node below a root is found by the path of its place. -/
theorem find_descend (hroot : disk.find root = .ok inside)
    (hnode : disk.node? (inside ++ place) = some node) (hlink : ∀ target, node ≠ .link target)
    (hne : place ≠ []) (hplace : ∀ name ∈ place, Bytes.isName name = true)
    (hnames : ∀ name ∈ place, name.length ≤ maxName ∧ 0 ∉ name)
    (hshort : (root.descend place).bytes.length ≤ maxPath) :
    disk.find (root.descend place) = .ok (inside ++ place) := by
  obtain ⟨hbytes, hclean, hfollow⟩ := follow_of_way (way_of_find hroot).2
  obtain ⟨tail, htail, -⟩ := Path.exists_bytes_descend hbytes hplace
  obtain ⟨front, hfront, hsteps⟩ := Path.exists_steps_descend hbytes
  have harrives : disk.follow .use maxLinks (startOf disk.current root) front =
      .ok (.found inside) := by
    rcases hfront with heq | heq <;> rw [heq] at hfollow
    · exact hfollow
    · exact follow_of_slash hfollow
  apply find_of_follow hshort
  · rw [htail]
    exact List.append_ne_nil_of_left_ne_nil hbytes _
  · intro hzero
    rcases Path.mem_bytes_descend hbytes hplace hzero with hmem | hslash | ⟨name, hname, hmem⟩
    · simp [hmem] at hclean
    · cases hslash
    · exact (hnames name hname).2 hmem
  · have hstart : startOf disk.current (root.descend place) = startOf disk.current root := by
      simp only [startOf, Path.isAbsolute_descend hbytes hplace]
    rw [hstart, hsteps place hne hplace]
    exact follow_append harrives (walkTo_names hnode hlink fun name h => (hnames name h).1)

/-- A node is found from the current directory by the way up and down to it. -/
theorem find_upDown (hdir : disk.node? disk.current = some (.dir entries))
    (hcurrent : disk.current = common ++ up) (hnode : disk.node? (common ++ down) = some node)
    (hlink : ∀ target, node ≠ .link target) (hne : down ≠ [])
    (hdown : ∀ name ∈ down, Bytes.isName name = true)
    (hnames : ∀ name ∈ down, name.length ≤ maxName ∧ 0 ∉ name)
    (hshort : (Path.upDown up down).bytes.length ≤ maxPath) :
    disk.find (Path.upDown up down) = .ok (common ++ down) := by
  have hplain := Path.isPlain_of_mem_upDown up hdown
  apply find_of_follow hshort
  · exact Path.bytes_ofPieces_ne_nil hplain (by simp [hne])
  · intro hzero
    rcases Path.mem_joinPieces hzero with hslash | ⟨piece, hpiece, hmem⟩
    · cases hslash
    · rcases List.mem_append.1 hpiece with hpiece | hpiece
      · obtain ⟨_, -, rfl⟩ := List.mem_map.1 hpiece
        revert hmem
        decide
      · exact (hnames piece hpiece).2 hmem
  · have hstart : startOf disk.current (Path.upDown up down) = common ++ up := by
      rw [startOf, Path.upDown, Path.isAbsolute_ofPieces hplain, if_neg Bool.false_ne_true, hcurrent]
    rw [hstart, Path.steps_upDown hdown hne, follow, walkTo_append, walkTo_ups (hcurrent ▸ hdir)]
    simp only [walkTo_names hnode hlink fun name h => (hnames name h).1]

end Disk

end LicenseStamp

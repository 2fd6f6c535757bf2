import LicenseStamp.Proofs.Selection.Rules

/-! # Two spellings of one file

A file below an absolute root can be spelled behind the root, or relative to another directory:
some steps up from there, and then down. By its components the second spelling does not start
with the root, so that it stands for itself and all of its names are looked at.
-/

namespace LicenseStamp

namespace Path

/-- The path that leads up as often as there are names in `up`, and then down. -/
def upDown (up down : Location) : Path :=
  .ofPieces .bare (up.map (fun _ => [dot, dot]) ++ down)

variable {root : Path} {up down place : Location} {pieces : List Bytes} {name : Bytes}

theorem isPlain_dotDot : IsPlain [dot, dot] := ⟨by decide, by decide⟩

theorem isPlain_of_mem_ups (up : Location) (hplain : ∀ piece ∈ pieces, IsPlain piece) :
    ∀ piece ∈ up.map (fun _ => [dot, dot]) ++ pieces, IsPlain piece := by
  intro piece h
  rcases List.mem_append.1 h with h | h
  · obtain ⟨_, -, rfl⟩ := List.mem_map.1 h
    exact isPlain_dotDot
  · exact hplain piece h

theorem isPlain_of_mem_upDown (up : Location) (hdown : ∀ name ∈ down, Bytes.isName name = true) :
    ∀ piece ∈ up.map (fun _ => [dot, dot]) ++ down, IsPlain piece :=
  isPlain_of_mem_ups up fun name h => isPlain_of_isName (hdown name h)

theorem isAbsolute_ofPieces (hplain : ∀ piece ∈ pieces, IsPlain piece) :
    (ofPieces .bare pieces).isAbsolute = false := by
  cases pieces with
  | nil => rfl
  | cons first rest =>
      obtain ⟨hslash, hvoid⟩ := hplain first List.mem_cons_self
      cases first with
      | nil => cases hvoid
      | cons byte bytes =>
          have hbyte : byte ≠ slash := fun same => hslash (same ▸ List.mem_cons_self)
          cases rest <;> simpa [ofPieces, joinPieces, isAbsolute] using hbyte

theorem bytes_ofPieces_ne_nil (hplain : ∀ piece ∈ pieces, IsPlain piece) (hne : pieces ≠ []) :
    (ofPieces .bare pieces).bytes ≠ [] := by
  obtain ⟨first, rest, rfl⟩ := List.exists_cons_of_ne_nil hne
  have hvoid := (hplain first List.mem_cons_self).2
  cases first with
  | nil => cases hvoid
  | cons byte bytes => cases rest <;> simp [ofPieces, joinPieces]

theorem anchor_of_isAbsolute (h : root.isAbsolute = true) : root.split.1 = .root := by
  obtain ⟨bytes⟩ := root
  cases bytes with
  | nil => cases h
  | cons byte rest =>
      obtain rfl : byte = slash := by simpa [isAbsolute] using h
      have hparts : (slash :: rest).splitOn slash = [] :: rest.splitOn slash := by
        have happend := List.splitOn_append_cons_self (a := slash) [] rest
        simpa using happend
      obtain ⟨next, more, hmore⟩ :=
        List.exists_cons_of_ne_nil (List.splitOn_ne_nil slash rest)
      simp only [split, hparts, hmore]

theorem steps_ne_nil (h : root.isAbsolute = true) : root.steps ≠ [] := by
  have hanchor := anchor_of_isAbsolute h
  simp only [steps, ne_eq, List.map_eq_nil_iff]
  unfold split at hanchor ⊢
  split
  · exact List.cons_ne_nil _ _
  next first rest hother hparts =>
    simp only [hparts] at hanchor
    split at hanchor <;> cases hanchor
  next hparts =>
    simp only [hparts] at hanchor
    cases hanchor

theorem bytes_ne_nil_of_isAbsolute (h : root.isAbsolute = true) : root.bytes ≠ [] := by
  intro hnil
  simp [isAbsolute, hnil] at h

/-- The steps of the way up and down. -/
theorem steps_upDown (hdown : ∀ name ∈ down, Bytes.isName name = true) (hne : down ≠ []) :
    (upDown up down).steps = List.replicate up.length .up ++ down.map .enter := by
  have hup : (fun _ : Bytes => Step.ofPiece [dot, dot]) = fun _ => .up := rfl
  have hnames : down.map Step.ofPiece = down.map .enter :=
    List.map_congr_left fun name h => Step.ofPiece_of_isName (hdown name h)
  rw [steps, upDown, split_ofPieces (isPlain_of_mem_upDown up hdown) (by simp [hne]), List.map_append,
    List.map_map, hnames]
  simp only [Function.comp_def, hup, List.map_const']

/-- The bytes of the path of a place are those of its base and of its names, and slashes. -/
theorem mem_bytes_descend {byte : UInt8} (hroot : root.bytes ≠ [])
    (hplace : ∀ name ∈ place, Bytes.isName name = true)
    (h : byte ∈ (root.descend place).bytes) :
    byte ∈ root.bytes ∨ byte = slash ∨ ∃ name ∈ place, byte ∈ name := by
  induction place generalizing root with
  | nil => exact .inl h
  | cons name rest ih =>
      have hname := hplace name List.mem_cons_self
      have hrest : ∀ other ∈ rest, Bytes.isName other = true := fun other h =>
        hplace other (List.mem_cons_of_mem _ h)
      rcases ih (isOpen_child hroot hname).1 hrest h with hchild | hslash | ⟨other, hother, hmem⟩
      · rw [bytes_child hroot hname, List.mem_append] at hchild
        rcases hchild with hmem | hadded
        · exact .inl hmem
        · have hname : byte = slash ∨ byte ∈ name := by
            split at hadded
            · exact .inr hadded
            · exact List.mem_cons.1 hadded
          rcases hname with hslash | hmem
          · exact .inr (.inl hslash)
          · exact .inr (.inr ⟨name, List.mem_cons_self, hmem⟩)
      · exact .inr (.inl hslash)
      · exact .inr (.inr ⟨other, List.mem_cons_of_mem _ hother, hmem⟩)

theorem mem_joinPieces {byte : UInt8} (h : byte ∈ joinPieces pieces) :
    byte = slash ∨ ∃ piece ∈ pieces, byte ∈ piece := by
  fun_induction joinPieces pieces with
  | case1 => cases h
  | case2 piece => exact .inr ⟨piece, List.mem_singleton_self _, h⟩
  | case3 piece next rest ih =>
      simp only [List.mem_append, List.mem_cons (a := byte)] at h
      rcases h with hmem | hslash | hmem
      · exact .inr ⟨piece, List.mem_cons_self, hmem⟩
      · exact .inl hslash
      · rcases ih hmem with hslash | ⟨other, hother, hmem⟩
        · exact .inl hslash
        · exact .inr ⟨other, List.mem_cons_of_mem _ hother, hmem⟩

/-- A relative path does not start with an absolute root. -/
theorem below?_of_relative (hroot : root.isAbsolute = true)
    (hplain : ∀ piece ∈ pieces, IsPlain piece) (hne : pieces ≠ []) :
    (ofPieces .bare pieces).below? root = none := by
  have hanchor := anchor_of_isAbsolute hroot
  have hempty := components_isEmpty_eq_false (bytes_ne_nil_of_isAbsolute hroot)
  rw [below?, split_ofPieces hplain hne]
  simp only [hempty, hanchor, Bool.false_eq_true, if_false, reduceCtorEq]

/-- An absolute root sees a relative path as it is. -/
theorem relativeTo_of_relative (hroot : root.isAbsolute = true)
    (hplain : ∀ piece ∈ pieces, IsPlain piece) (hne : pieces ≠ []) :
    (ofPieces .bare pieces).relativeTo root = .ofPieces .bare pieces := by
  have hway : (ofPieces .bare pieces).wayFrom? root = none := by
    rw [wayFrom?, isAbsolute_ofPieces hplain, hroot, if_neg Bool.false_ne_true]
  rw [relativeTo, below?_of_relative hroot hplain hne, hway, Option.getD_none]

/-- The last name on the way down is the file name. -/
theorem fileName?_upDown (up : Location) (hdown : ∀ name ∈ down, Bytes.isName name = true)
    (hlast : down.getLast? = some name) : (upDown up down).fileName? = some name := by
  have hname := hdown name (List.mem_of_getLast? hlast)
  rw [fileName?, upDown, components_ofPieces_of_isPlain (isPlain_of_mem_upDown up hdown),
    List.getLast?_map, List.getLast?_append, hlast, Option.some_or, Option.map_some,
    ofPiece_of_isName hname]

theorem isInSkippedDir_upDown (up : Location) (hroot : root.isAbsolute = true)
    (hdown : ∀ name ∈ down, Bytes.isName name = true) (hne : down ≠ []) :
    Filter.isInSkippedDir root (upDown up down) = down.dropLast.any Filter.isSkippedDirName := by
  have hplain := isPlain_of_mem_upDown up hdown
  have hup : Filter.isSkippedDirName [dot, dot] = false := rfl
  have hups : (up.map fun _ => [dot, dot]).any Filter.isSkippedDirName = false := by
    simp [hup]
  rw [Filter.isInSkippedDir_of_pieces hplain, List.dropLast_append_of_ne_nil hne, List.any_append,
    hups, Bool.false_or]
  rw [upDown, below?_of_relative hroot hplain (by simp [hne]), Option.getD_none]

/-- Up and down is the way along the names of a place only if it leads down along them. -/
theorem upDown_eq_ofPieces_iff (hdown : ∀ name ∈ down, Bytes.isName name = true)
    (hplace : ∀ name ∈ place, Bytes.isName name = true) :
    upDown up down = .ofPieces .bare place ↔ up = [] ∧ down = place := by
  constructor
  · intro h
    have hcomponents := congrArg components h
    rw [upDown, components_ofPieces_of_isPlain (isPlain_of_mem_upDown up hdown),
      components_ofPieces hplace] at hcomponents
    cases up with
    | nil =>
        have hnames : down.map ofPiece = down.map .name :=
          List.map_congr_left fun name h => ofPiece_of_isName (hdown name h)
        rw [List.map_nil, List.nil_append, hnames] at hcomponents
        exact ⟨rfl, (List.map_inj_right fun _ _ => Component.name.inj).1 hcomponents⟩
    | cons first rest =>
        -- the first component leads up, and none of the place does
        have hmem : Component.up ∈ place.map Component.name := by
          rw [← hcomponents]
          exact List.mem_cons_self
        obtain ⟨_, -, hup⟩ := List.mem_map.1 hmem
        cases hup
  · rintro ⟨rfl, rfl⟩
    rfl

end Path

end LicenseStamp

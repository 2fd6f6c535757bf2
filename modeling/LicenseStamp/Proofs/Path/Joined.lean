import LicenseStamp.Proofs.Path.Spelling

/-! # Joining what is seen below a root

The names of a place, joined to the path of the root, are the path of the place. The path of a
location is the path of its names below the root directory.
-/

namespace LicenseStamp

namespace Path

variable {base path : Path} {place : Location}

/-- What is seen of a place, joined to its root, is the path of the place. -/
theorem join_ofPieces (hbase : base.bytes ≠ []) (hplace : ∀ name ∈ place, Bytes.isName name = true)
    (hne : place ≠ []) : base.join (.ofPieces .bare place) = base.descend place := by
  have relative : ∀ {names : Location}, (∀ name ∈ names, Bytes.isName name = true) →
      (ofPieces .bare names).isAbsolute = false := fun hnames =>
    isAbsolute_ofPieces fun name h => isPlain_of_isName (hnames name h)
  induction place generalizing base with
  | nil => exact absurd rfl hne
  | cons name rest ih =>
      cases rest with
      | nil => rfl
      | cons next more =>
          obtain ⟨hname, hrest⟩ := List.forall_mem_cons.1 hplace
          have hopen := isOpen_child hbase hname
          have hbelow : (base.child name).join (.ofPieces .bare (next :: more)) =
              base.descend (name :: next :: more) := ih hopen.1 hrest (List.cons_ne_nil _ _)
          rw [← hbelow, Path.mk.injEq, bytes_join hbase (relative hplace),
            bytes_join hopen.1 (relative hrest), if_neg hopen.2, bytes_child hbase hname]
          split <;> simp only [ofPieces, joinPieces, List.append_assoc, List.cons_append]

end Path

theorem Location.isAbsolute_path (location : Location) : location.path.isAbsolute = true := rfl

theorem Location.path_eq_descend {location : Location}
    (hnames : ∀ name ∈ location, Bytes.isName name = true) :
    location.path = Path.descend ⟨[Path.slash]⟩ location := by
  cases location with
  | nil => rfl
  | cons name rest =>
      have hrelative : (Path.ofPieces .bare (name :: rest)).isAbsolute = false :=
        Path.isAbsolute_ofPieces fun piece h => Path.isPlain_of_isName (hnames piece h)
      rw [← Path.join_ofPieces (List.cons_ne_nil _ _) hnames (List.cons_ne_nil _ _), Path.mk.injEq,
        Path.bytes_join (List.cons_ne_nil _ _) hrelative]
      rfl

end LicenseStamp

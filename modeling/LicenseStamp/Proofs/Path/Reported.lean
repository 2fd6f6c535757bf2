import LicenseStamp.Proofs.Path.Spelling
import LicenseStamp.Proofs.Text.Utf8
import LicenseStamp.Report.Document

/-! # Paths in report documents

A report document writes a backslash as a slash. So the path of an entry has the components of the
path that is reported if and only if that one holds no backslash, and two paths that spell texts are
written the same if and only if they differ in nothing but slashes for backslashes.
-/

namespace LicenseStamp

namespace Utf8

theorem decodeLossy_encode (text : Text) : decodeLossy (encode text) = text := by
  rw [decodeLossy, scan_encode, List.map_map]
  exact List.map_id text

theorem encode_append (first second : Text) :
    encode (first ++ second) = encode first ++ encode second :=
  List.flatMap_append

theorem encode_inj {first second : Text} (h : encode first = encode second) : first = second :=
  Option.some.inj (by rw [← decode?_encode first, h, decode?_encode])

end Utf8

namespace Path

variable {path first second : Path} {pieces : List Bytes} {byte : UInt8}

/-- The byte of a backslash. -/
def backslash : UInt8 := 0x5C

/-- The path with a slash for each backslash. -/
def slashed (path : Path) : Path :=
  ⟨path.bytes.map fun byte => if byte = backslash then slash else byte⟩

/-- A path that spells a text. -/
def IsText (path : Path) : Prop := ∃ text, path = .ofText text

/-! ## Spelling texts -/

theorem encodeChar_slashed (c : Char) :
    Utf8.encodeChar (if c = '\\' then '/' else c) =
      (Utf8.encodeChar c).map fun byte => if byte = backslash then slash else byte := by
  split
  next hbackslash => rw [hbackslash]; rfl
  next hother =>
    -- no other character has the byte of a backslash in it
    refine (List.map_id _).symm.trans (List.map_congr_left fun byte hbyte => ?_)
    refine (if_neg ?_).symm
    rintro rfl
    exact hother (Utf8.eq_ofNat_of_mem_encodeChar hbyte (by decide))

/-- The path of an entry is the reported path with a slash for each backslash. -/
theorem ofText_reported (h : path.IsText) : ofText path.reported = path.slashed := by
  obtain ⟨text, rfl⟩ := h
  have hdisplay : (ofText text).display = text := Utf8.decodeLossy_encode text
  rw [reported, hdisplay, ofText, ofText, slashed, Path.mk.injEq, Utf8.encode, Utf8.encode,
    List.flatMap_map, List.map_flatMap]
  exact congrArg (text.flatMap ·) (funext encodeChar_slashed)

theorem reported_eq_iff (hfirst : first.IsText) (hsecond : second.IsText) :
    first.reported = second.reported ↔ first.slashed = second.slashed := by
  rw [← ofText_reported hfirst, ← ofText_reported hsecond]
  exact ⟨congrArg ofText, fun h => Utf8.encode_inj (Path.mk.inj h)⟩

theorem isText_ofPieces (h : ∀ piece ∈ pieces, ∃ text, piece = Utf8.encode text) :
    (ofPieces .bare pieces).IsText := by
  suffices hjoined : ∃ text, joinPieces pieces = Utf8.encode text by
    obtain ⟨text, htext⟩ := hjoined
    exact ⟨text, congrArg Path.mk htext⟩
  fun_induction joinPieces pieces with
  | case1 => exact ⟨[], rfl⟩
  | case2 piece => exact h piece List.mem_cons_self
  | case3 piece next rest ih =>
      obtain ⟨⟨front, rfl⟩, hrest⟩ := List.forall_mem_cons.1 h
      obtain ⟨back, hback⟩ := ih hrest
      refine ⟨front ++ '/' :: back, ?_⟩
      rw [hback, Utf8.encode_append]
      rfl

/-! ## Components -/

theorem mem_joinPieces_of_mem {piece : Bytes} (hpiece : piece ∈ pieces) (hbyte : byte ∈ piece) :
    byte ∈ joinPieces pieces := by
  fun_induction joinPieces pieces with
  | case1 => cases hpiece
  | case2 only =>
      obtain rfl := List.mem_singleton.1 hpiece
      exact hbyte
  | case3 front next rest ih =>
      rcases List.mem_cons.1 hpiece with rfl | hlater
      · exact List.mem_append_left _ hbyte
      · exact List.mem_append_right _ (List.mem_cons_of_mem _ (ih hlater))

theorem name_not_mem_anchor {name : Bytes} (anchor : Anchor) : .name name ∉ anchor.components := by
  cases anchor <;> simp [Anchor.components]

/-- The bytes of a name are bytes of the path. -/
theorem mem_bytes_of_mem_components {name : Bytes} (h : .name name ∈ path.components)
    (hbyte : byte ∈ name) : byte ∈ path.bytes := by
  have hpiece : name ∈ path.split.2 := by
    rcases List.mem_append.1 h with hanchor | hpieces
    · exact absurd hanchor (name_not_mem_anchor path.split.1)
    · obtain ⟨piece, hmem, hname⟩ := List.mem_map.1 hpieces
      unfold ofPiece at hname
      split at hname
      · cases hname
      · rw [← Component.name.inj hname]
        exact (List.mem_filter.1 hmem).1
  have hjoin : joinPieces (path.bytes.splitOn slash) = path.bytes := by
    rw [joinPieces_eq_intercalate]
    exact List.intercalate_splitOn slash
  rw [← hjoin]
  exact mem_joinPieces_of_mem (mem_splitOn_of_mem_split hpiece) hbyte

theorem backslash_not_mem_slashed (path : Path) : backslash ∉ path.slashed.bytes := by
  intro h
  obtain ⟨byte, -, hbyte⟩ := List.mem_map.1 h
  split at hbyte
  · cases hbyte
  next hother => exact hother hbyte

theorem slashed_eq (h : backslash ∉ path.bytes) : path.slashed = path := by
  rw [slashed]
  refine congrArg Path.mk ((List.map_congr_left fun byte hbyte => if_neg ?_).trans (List.map_id _))
  rintro rfl
  exact h hbyte

/-- Written with slashes, the path of a place still names it if and only if there is no backslash in
    the names of the place. -/
theorem components_slashed_iff {place : Location} (hnames : ∀ name ∈ place, Bytes.isName name = true) :
    (ofPieces .bare place).slashed.components = place.map .name ↔
      ∀ name ∈ place, backslash ∉ name := by
  constructor
  · intro h name hname hmem
    have hcomponent : .name name ∈ (ofPieces .bare place).slashed.components := by
      rw [h]
      exact List.mem_map_of_mem hname
    exact backslash_not_mem_slashed _ (mem_bytes_of_mem_components hcomponent hmem)
  · intro h
    rw [slashed_eq, components_ofPieces hnames]
    intro hmem
    rcases mem_joinPieces hmem with hslash | ⟨name, hname, hbyte⟩
    · cases hslash
    · exact h name hname hbyte

end Path

end LicenseStamp

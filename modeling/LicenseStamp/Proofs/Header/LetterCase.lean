import LicenseStamp.Proofs.Header.Removal
import LicenseStamp.Proofs.Text.Positions

/-! # Obsolete headers in any letter case

The removal of an obsolete header asks of a line whether it is blank and what it is in lower case,
and neither depends on the case of its ASCII letters. So with some letters in the other case a text
loses the same lines, and what is kept of it stands at the same positions.
-/

namespace LicenseStamp.Obsolete

open Text (Recased)

variable {text other line line' : Text} {ls ls' : List Text} {property : Text → Prop}
  {top top' blank blank' rest rest' start index : Nat}

/-! ## Extents -/

theorem signed_recased (h : Recased line line') : Signed line' ↔ Signed line := by
  rw [Signed, Signed, h.lower_eq]

theorem exists_line_recased (hproperty : ∀ {line line'}, Recased line line' →
    (property line' ↔ property line)) (h : List.Forall₂ Recased ls ls') (i : Nat) :
    (∃ line, ls'[i]? = some line ∧ property line) ↔ ∃ line, ls[i]? = some line ∧ property line := by
  induction h generalizing i with
  | nil => rfl
  | cons hline hrest ih =>
      cases i with
      | zero => simp [hproperty hline]
      | succ i => exact ih i

theorem isFirstFrom_recased (hproperty : ∀ {line line'}, Recased line line' →
    (property line' ↔ property line)) (h : List.Forall₂ Recased ls ls') :
    IsFirstFrom property ls' start index ↔ IsFirstFrom property ls start index := by
  simp only [IsFirstFrom, h.length_eq, exists_line_recased hproperty h]

theorem findLine?_recased (h : List.Forall₂ Recased ls ls') : findLine? ls' = findLine? ls := by
  apply Option.ext
  intro top
  simp only [findLine?, findIdx?_take_eq_some_iff, exists_line_recased signed_recased h]

theorem extent_recased (h : List.Forall₂ Recased ls ls') :
    Extent ls' top blank rest ↔ Extent ls top blank rest := by
  have hblank (answer : Bool) {line line' : Text} (hline : Recased line line') :
      Text.isBlankLine line' = answer ↔ Text.isBlankLine line = answer := by
    rw [hline.isBlankLine_eq]
  constructor
  · rintro ⟨hsigned, hends, hresumes⟩
    simp only [exists_line_recased signed_recased h] at hsigned
    exact ⟨hsigned, (isFirstFrom_recased (hblank true) h).1 hends,
      (isFirstFrom_recased (hblank false) h).1 hresumes⟩
  · rintro ⟨hsigned, hends, hresumes⟩
    simp only [← exists_line_recased signed_recased h] at hsigned
    exact ⟨hsigned, (isFirstFrom_recased (hblank true) h).2 hends,
      (isFirstFrom_recased (hblank false) h).2 hresumes⟩

theorem Extent.unique (h : Extent ls top blank rest) (h' : Extent ls top' blank' rest') :
    top = top' ∧ blank = blank' ∧ rest = rest' := by
  obtain rfl := h.signed.unique h'.signed
  obtain rfl := h.ends.unique h'.ends
  exact ⟨rfl, rfl, h.resumes.unique h'.resumes⟩

theorem strip?_of_extent (h : Extent (Text.lines text) top blank rest) :
    strip? text = some (Text.unlines ((Text.lines text).drop rest)) := by
  have hfind : findLine? (Text.lines text) = some top := findIdx?_take_eq_some_iff.2 h.signed
  obtain ⟨blank', rest', hextent, hbelow⟩ := exists_extent hfind
  obtain ⟨-, -, rfl⟩ := h.unique hextent
  rw [strip?, hfind, Option.map_some, hbelow]

/-! ## What is kept -/

theorem strip?_eq_none_recased (h : Recased text other) : strip? other = none ↔ strip? text = none := by
  rw [strip?, strip?, Option.map_eq_none_iff, Option.map_eq_none_iff, findLine?_recased h.lines.1]

theorem exists_positions (h : Recased text other) :
    ∃ positions : List Nat, positions.Sublist (List.range text.length) ∧
      strip text = positions.map (text.getD · ' ') ∧
      strip other = positions.map (other.getD · ' ') := by
  obtain ⟨hlines, hkept⟩ := h.lines
  cases hstrip : strip? text with
  | none =>
      refine ⟨List.range text.length, .refl _, ?_, ?_⟩
      · rw [strip, hstrip, Option.getD_none, Text.map_getD_range]
      · rw [strip, (strip?_eq_none_recased h).2 hstrip, Option.getD_none, h.length_eq,
          Text.map_getD_range]
  | some kept =>
      obtain ⟨top, blank, rest, hextent, rfl⟩ := strip?_eq_some hstrip
      obtain ⟨positions, hsublist, htext, hother⟩ := hkept rest
      refine ⟨positions, hsublist, ?_, ?_⟩
      · rw [strip, hstrip, Option.getD_some, htext]
      · rw [strip, strip?_of_extent ((extent_recased hlines).2 hextent), Option.getD_some, hother]

theorem strip_eq_self_iff_length : strip text = text ↔ (strip text).length = text.length := by
  refine ⟨congrArg List.length, fun hlength => ?_⟩
  obtain ⟨positions, hsublist, hkept, -⟩ := exists_positions (.refl text)
  have hall : positions = List.range text.length := by
    apply hsublist.eq_of_length
    rw [List.length_range, ← hlength, hkept, List.length_map]
  rw [hkept, hall, Text.map_getD_range]

/-- Removing an obsolete header does not look at the case of ASCII letters, whatever other characters
    stand between them. A text and the same one with some of its letters in the other case have a
    signature first on the same line, both are left alone or none is, the header ends at the
    same line and the rest resumes at the same one, and the characters that are kept stand
    at the same positions of both. -/
theorem strip_recased (h : Recased text other) :
    findLine? (Text.lines other) = findLine? (Text.lines text) ∧
      (strip? other = none ↔ strip? text = none) ∧ (strip other = other ↔ strip text = text) ∧
      (∀ kept, strip? text = some kept → ∃ top blank rest,
        Extent (Text.lines text) top blank rest ∧ Extent (Text.lines other) top blank rest ∧
        kept = Text.unlines ((Text.lines text).drop rest) ∧
        strip? other = some (Text.unlines ((Text.lines other).drop rest))) ∧
      Recased (strip text) (strip other) ∧
      ∃ positions : List Nat, positions.Pairwise (· < ·) ∧
        positions.map (text[·]?) = (strip text).map some ∧
        positions.map (other[·]?) = (strip other).map some := by
  have hlines := h.lines.1
  obtain ⟨positions, hsublist, htext, hother⟩ := exists_positions h
  -- both texts are read at the positions that are kept
  have hread {source : Text} (hlength : text.length = source.length) :
      positions.map (source[·]?) = (positions.map (source.getD · ' ')).map some := by
    rw [List.map_map]
    apply List.map_congr_left
    intro i hi
    have hin := List.mem_range.1 (hsublist.subset hi)
    rw [hlength] at hin
    rw [Function.comp_apply, List.getElem?_eq_getElem hin, List.getD_eq_getElem _ _ hin]
  refine ⟨findLine?_recased hlines, strip?_eq_none_recased h, ?_, ?_, ?_, positions,
    List.pairwise_lt_range.sublist hsublist, ?_, ?_⟩
  · have hlength : (strip other).length = (strip text).length := by
      rw [htext, hother, List.length_map, List.length_map]
    rw [strip_eq_self_iff_length, strip_eq_self_iff_length, hlength, h.length_eq]
  · intro kept hkept
    obtain ⟨top, blank, rest, hextent, rfl⟩ := strip?_eq_some hkept
    have hextent' := (extent_recased hlines).2 hextent
    exact ⟨top, blank, rest, hextent, hextent', rfl, strip?_of_extent hextent'⟩
  · rw [htext, hother]
    exact h.map_getD positions
  · rw [htext, hread rfl]
  · rw [hother, hread h.length_eq]

/-- A capital sigma inside the word and a dotted capital letter at the end of the line stand next to a
    signature, which is found in either spelling. -/
theorem strip_recased_sigma :
    let text : Text := ['A', 'Σ', 'M', 'I', 'T', ' ', 'L', 'i', 'c', 'e', 'n', 's', 'e', 'İ', '\n', '\n',
      'É', 'a']
    let other : Text := ['a', 'Σ', 'm', 'i', 'T', ' ', 'l', 'I', 'c', 'E', 'n', 's', 'e', 'İ', '\n', '\n',
      'É', 'A']
    Recased text other ∧ strip text = ['É', 'a'] ∧ strip other = ['É', 'A'] ∧
      ∃ positions : List Nat, positions.Pairwise (· < ·) ∧
        positions.map (text[·]?) = (strip text).map some ∧
        positions.map (other[·]?) = (strip other).map some := by
  intro text other
  have hrecased : Recased text other := by
    simp only [text, other, Recased, List.forall₂_cons, List.forall₂_nil_left_iff, Text.SameLetter]
    decide
  obtain ⟨-, -, -, -, -, hpositions⟩ := strip_recased hrecased
  exact ⟨hrecased, by decide +kernel, by decide +kernel, hpositions⟩

end LicenseStamp.Obsolete

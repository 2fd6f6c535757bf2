import LicenseStamp.Proofs.Header.FinalFeed
import LicenseStamp.Proofs.Header.Removal

/-! # What stamping composes

A stamped text is the header, alone or with an empty line and the trimmed body below it, and it ends
in one line feed behind a character that is no blank. So the body can be read off it again.
-/

namespace LicenseStamp

namespace Text

variable {text first second : Text}

/-- Trimming leaves what stands before more than blanks. -/
theorem trimEnd_append_of_ne_nil (h : trimEnd second ≠ []) (first : Text) :
    trimEnd (first ++ second) = first ++ trimEnd second := by
  induction first with
  | nil => rfl
  | cons c rest ih =>
      rw [List.cons_append, trimEnd, ih]
      cases hkept : rest ++ trimEnd second with
      | nil => exact absurd (List.append_eq_nil_iff.1 hkept).2 h
      | cons d kept => rw [List.cons_append, hkept]

theorem trimEnd_concat {c : Char} (hc : isBlank c = false) (front : Text) :
    trimEnd (front ++ [c]) = front ++ [c] := by
  have hlast : trimEnd [c] = [c] := by simp [trimEnd, hc]
  rw [trimEnd_append_of_ne_nil (by simp [hlast]), hlast]

theorem trimEnd_trimEnd (text : Text) : trimEnd (trimEnd text) = trimEnd text := by
  obtain ⟨tail, hblank, htext⟩ := exists_blank_tail text
  conv => rhs; rw [htext]
  exact (trimEnd_append_of_blank hblank _).symm

/-- A trimmed text ends in no blank. -/
theorem exists_trimEnd_eq (h : trimEnd text ≠ []) :
    ∃ front c, trimEnd text = front ++ [c] ∧ isBlank c = false := by
  induction text with
  | nil => exact absurd rfl h
  | cons d rest ih =>
      by_cases hrest : trimEnd rest = []
      · cases hd : isBlank d with
        | true => simp [trimEnd, hrest, hd] at h
        | false => exact ⟨[], d, by simp [trimEnd, hrest, hd], hd⟩
      · obtain ⟨front, c, hkept, hc⟩ := ih hrest
        have hcons := trimEnd_append_of_ne_nil hrest [d]
        rw [hkept] at hcons
        exact ⟨d :: front, c, hcons, hc⟩

end Text

namespace HeaderStyle

variable {style : HeaderStyle} {text body : Text}

/-- Above nothing but blanks the header stands alone. -/
theorem compose_of_blank (style : HeaderStyle) (h : Text.isBlankLine body = true) :
    style.compose body = style.header := by
  obtain ⟨front, c, hheader, hc, -⟩ := style.exists_header_eq
  have htail : Text.isBlankLine ('\n' :: '\n' :: body) = true := h
  have hsplit : style.header ++ '\n' :: body = (front ++ [c]) ++ '\n' :: '\n' :: body := by
    simp [hheader]
  rw [compose, hsplit, Text.trimEnd_append_of_blank htail, Text.trimEnd_concat hc, hheader,
    List.append_assoc, List.singleton_append]

/-- Below the header and an empty line stands the trimmed body. -/
theorem compose_of_body (style : HeaderStyle) (h : Text.isBlankLine body = false) :
    style.compose body = style.header ++ '\n' :: Text.trimEnd body ++ ['\n'] := by
  have hne : Text.trimEnd body ≠ [] := by simp [Text.trimEnd_eq_nil_iff, h]
  have htrim := Text.trimEnd_append_of_ne_nil hne (style.header ++ ['\n'])
  rw [List.append_assoc, List.append_assoc, List.singleton_append, List.singleton_append] at htrim
  rw [compose, htrim]

theorem marker_infix_header (style : HeaderStyle) : marker <:+: style.header := by
  obtain ⟨front, c, hheader, -, hmarker⟩ := style.exists_header_eq
  refine hmarker.trans ⟨[], ['\n'], ?_⟩
  simp [hheader]

theorem header_prefix_compose (style : HeaderStyle) (body : Text) :
    style.header <+: style.compose body := by
  cases h : Text.isBlankLine body with
  | true => rw [style.compose_of_blank h]
  | false =>
      rw [style.compose_of_body h, List.append_assoc]
      exact List.prefix_append _ _

/-- A composed text ends in one line feed, behind a character that is no blank. -/
theorem exists_compose_eq (style : HeaderStyle) (body : Text) :
    ∃ front c, style.compose body = front ++ [c, '\n'] ∧ Text.isBlank c = false := by
  have hne : Text.trimEnd (style.header ++ '\n' :: body) ≠ [] := by
    obtain ⟨front, c, hheader, hc, -⟩ := style.exists_header_eq
    have hkept := Text.prefix_trimEnd hc front ('\n' :: '\n' :: body)
    intro hnil
    simp only [hheader, List.append_assoc, List.cons_append, List.nil_append] at hnil
    simp [hnil] at hkept
  obtain ⟨front, c, htrim, hc⟩ := Text.exists_trimEnd_eq hne
  exact ⟨front, c, by rw [compose, htrim, List.append_assoc, List.singleton_append], hc⟩

/-- What stands below the header and the line after it is the body, up to blanks at the end. -/
theorem trimEnd_drop_compose (style : HeaderStyle) (body : Text) :
    Text.trimEnd ((style.compose body).drop (style.header.length + 1)) = Text.trimEnd body := by
  cases h : Text.isBlankLine body with
  | true =>
      rw [style.compose_of_blank h, List.drop_eq_nil_of_le (Nat.le_succ _), Text.trimEnd_blank h]
      rfl
  | false =>
      have hcut : style.compose body = (style.header ++ ['\n']) ++ (Text.trimEnd body ++ ['\n']) := by
        rw [style.compose_of_body h]
        simp
      have hlength : style.header.length + 1 = (style.header ++ ['\n']).length := by simp
      rw [hcut, hlength, List.drop_left, Text.trimEnd_append_of_blank rfl, Text.trimEnd_trimEnd]

/-- Above a text that ends properly and has no old header, the new header is put with an empty
    line. -/
theorem content_stamp_of_unsigned (style : HeaderStyle)
    (hend : ∃ front c, text = front ++ [c, '\n'] ∧ Text.isBlank c = false)
    (hunsigned : ∀ line ∈ (Text.lines text).take 40, ¬ Obsolete.Signed line) :
    (style.stamp text).content = Text.ended (style.headerLines ++ [[]]) ++ text := by
  obtain ⟨front, c, rfl, hc⟩ := hend
  have hstrip : Obsolete.strip (front ++ [c, '\n']) = front ++ [c, '\n'] :=
    congrArg (Option.getD · _) (Obsolete.strip?_eq_none_iff_signed.2 hunsigned)
  have htrim : Text.trimEnd (front ++ [c, '\n']) = front ++ [c] := by
    have hcut : front ++ [c, '\n'] = (front ++ [c]) ++ ['\n'] := by simp
    rw [hcut, Text.trimEnd_append_of_blank rfl, Text.trimEnd_concat hc]
  have hbody : Text.isBlankLine (front ++ [c, '\n']) = false := by
    rw [← Bool.not_eq_true, ← Text.trimEnd_eq_nil_iff, htrim]
    simp
  rw [stamp, hstrip, compose_of_body style hbody, htrim]
  simp [header, Text.ended]

theorem replaced_stamp_iff (style : HeaderStyle) (text : Text) :
    (style.stamp text).replaced = true ↔ ∃ line ∈ (Text.lines text).take 40, Obsolete.Signed line := by
  rw [stamp, Option.isSome_iff_ne_none, Ne, Obsolete.strip?_eq_none_iff_signed]
  simp only [not_forall, not_not, exists_prop]

end HeaderStyle

end LicenseStamp

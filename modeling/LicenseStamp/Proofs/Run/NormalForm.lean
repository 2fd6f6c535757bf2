import LicenseStamp.Proofs.Header.Composed
import LicenseStamp.Proofs.Run.LineEnds

/-! # The normal form of stamped files

What is stamped into a file is a text in a normal form: the header, then the trimmed body below an
empty line, and one line feed at the end. It is read from the file as it was written, and nothing
but blanks at the end of the old text is lost if no obsolete header was removed.
-/

namespace LicenseStamp

variable {disk : Disk} {path : Path} {text : Text}

namespace Disk

theorem return_not_mem_readText (h : disk.readText path = .ok text) : '\r' ∉ text := by
  rw [readText] at h
  split at h
  next content _ =>
    rw [Bytes.readText] at h
    split at h
    next decoded _ =>
      rw [← Except.ok.inj h]
      exact Text.return_not_mem_unifyNewlines decoded
    · cases h
  · cases h

/-- A text without carriage returns that is written over a file is read from there unchanged. -/
theorem readText_write {location : Location} {old : Bytes} {after : Disk}
    (hfind : disk.find path = .ok location) (hold : disk.content? location = some old)
    (hreturn : '\r' ∉ text) (h : disk.write path (Utf8.encode text) = .ok after) :
    after.readText path = .ok text := by
  rw [write_of_content? hfind hold] at h
  split at h
  · cases h
  · rw [← Except.ok.inj h, readText_put hfind hold, Text.unifyNewlines_eq_self hreturn]

end Disk

/-- Every text that is read is stamped in the same form, with the header on top and one line feed at
    the end, and that form is stable when it is written and read again. Nothing of the body is lost
    but the blanks at its end, and an obsolete header is replaced if and only if a signature stands
    in the first 40 lines. -/
theorem HeaderStyle.stamp_normalForm (hread : disk.readText path = .ok text) (style : HeaderStyle) :
    let new := (style.stamp text).content
    let body := Obsolete.strip text
    style.header <+: new ∧ HeaderStyle.marker <:+: new ∧ '\r' ∉ new ∧
      (∃ front c, new = front ++ [c, '\n'] ∧ Text.isBlank c = false) ∧
      Bytes.readText (Utf8.encode new) = .ok new ∧
      (∀ (other after : Disk) (target : Path) (location : Location) (old : Bytes),
        other.find target = .ok location → other.content? location = some old →
          other.write target (Utf8.encode new) = .ok after → after.readText target = .ok new) ∧
      (Text.isBlankLine body = true → new = style.header) ∧
      (Text.isBlankLine body = false →
        new = style.header ++ ['\n'] ++ Text.trimEnd body ++ ['\n']) ∧
      ((∀ line ∈ (Text.lines text).take 40, ¬ Obsolete.Signed line) →
        Text.trimEnd (new.drop (style.header.length + 1)) = Text.trimEnd text) ∧
      ((style.stamp text).replaced = true ↔
        ∃ line ∈ (Text.lines text).take 40, Obsolete.Signed line) := by
  intro new body
  have hreturn : '\r' ∉ new := style.return_not_mem_stamp (Disk.return_not_mem_readText hread)
  have hheader : style.header <+: new := style.header_prefix_compose body
  refine ⟨hheader, style.marker_infix_header.trans hheader.isInfix, hreturn,
    style.exists_compose_eq body, ?_, ?_, style.compose_of_blank, ?_, ?_,
    style.replaced_stamp_iff text⟩
  · rw [readText_encode, Text.unifyNewlines_eq_self hreturn]
  · intro other after target location old hfind hold hwrite
    exact Disk.readText_write hfind hold hreturn hwrite
  · intro hbody
    rw [List.append_assoc style.header]
    exact style.compose_of_body hbody
  · intro hunsigned
    have hstrip : body = text :=
      congrArg (Option.getD · text) (Obsolete.strip?_eq_none_iff_signed.2 hunsigned)
    have hnew : new = style.compose text := congrArg style.compose hstrip
    rw [hnew]
    exact style.trimEnd_drop_compose text

open Disk in
/-- A script with blanks behind its one line gets the header and that line, and nothing else. -/
theorem HeaderStyle.stamp_normalForm_aliasedSite :
    let disk := (aliasedSite []).put aliasedSiteScript
      (.file (Utf8.encode ['a', ' ', '\r', '\n', ' ', '\n']))
    let path := Path.ofText ['/', 's', '/', 'a', '.', 'j', 's']
    let new := (HeaderStyle.code.stamp ['a', ' ', '\n', ' ', '\n']).content
    disk.readText path = .ok ['a', ' ', '\n', ' ', '\n'] ∧
      new = HeaderStyle.code.header ++ ['\n'] ++ ['a'] ++ ['\n'] ∧
      ∀ after, disk.write path (Utf8.encode new) = .ok after → after.readText path = .ok new := by
  intro disk path new
  have hold := (content?_aliasedSite []).1
  have hfind := (find_aliasedSite []).1
  have hread : disk.readText path = .ok ['a', ' ', '\n', ' ', '\n'] := by
    rw [readText_put hfind hold]
    rfl
  have hbody : Text.isBlankLine (Obsolete.strip ['a', ' ', '\n', ' ', '\n']) = false := by
    decide +kernel
  have htrim : Text.trimEnd (Obsolete.strip ['a', ' ', '\n', ' ', '\n']) = ['a'] := rfl
  obtain ⟨-, -, -, -, -, hwrite, -, hnew, -, -⟩ := stamp_normalForm hread .code
  have hnew := hnew hbody
  rw [htrim] at hnew
  refine ⟨hread, hnew, fun after hafter => ?_⟩
  exact hwrite disk after path _ _ ((find_put hold _ path).trans hfind) (content?_put_self hold _)
    hafter

end LicenseStamp

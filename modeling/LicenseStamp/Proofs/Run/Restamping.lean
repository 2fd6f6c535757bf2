import LicenseStamp.Proofs.Header.Composed
import LicenseStamp.Proofs.Run.LineEnds

/-! # Stamping a stamped text

No line of the new header holds a signature, and the header moves every line of the body down by its
own height. So the signatures that a second search finds are those of the body, as far down as the
header leaves room for them in the window. Where there are none a second header is put above the first.
-/

namespace LicenseStamp

namespace Obsolete

/-- Lines without a signature move the first signed line below them down, and hide what they push out
    of the window. -/
theorem findLine?_append {above : List Text} (h : ∀ line ∈ above, isSigned line = false)
    (hheight : above.length ≤ window) (ls : List Text) :
    findLine? (above ++ ls) =
      ((ls.take (window - above.length)).findIdx? isSigned).map (· + above.length) := by
  have hnone : above.findIdx? isSigned = none := List.findIdx?_eq_none_iff.2 h
  rw [findLine?, List.take_append, List.take_of_length_le hheight, List.findIdx?_append, hnone,
    Option.none_or]

end Obsolete

namespace Decision

variable {relative : Path} {style : HeaderStyle} {text : Text} {stamped : Stamped}

theorem report_stamp_added_iff :
    (report relative (.stamp style text stamped)).action = .added ↔ stamped.replaced = false := by
  cases h : stamped.replaced <;> simp [report, action, h]

theorem report_stamp_replaced_iff :
    (report relative (.stamp style text stamped)).action = .replaced ↔ stamped.replaced ≠ false := by
  cases h : stamped.replaced <;> simp [report, action, h]

end Decision

/-- A job that takes the text of a file for one without a header stamps it again. -/
theorem Job.processFile_unlicensed {job : Job} {disk : Disk} {path : Path} {location : Location}
    {style : HeaderStyle} {text : Text}
    (hclass : Eligibility.classify job.root path = .candidate style)
    (hfind : disk.find path = .ok location)
    (hcontent : disk.content? location = some (Utf8.encode text)) (hreturn : '\r' ∉ text)
    (hidle : disk.running ≠ some location) (hcheck : job.check = false)
    (hlicensed : job.licensed text = false) :
    (job.processFile disk path).reports =
        [Decision.report (path.relativeTo job.root) (.stamp style text (style.stamp text))] ∧
      (job.processFile disk path).disk.content? location =
        some (Utf8.encode (style.stamp text).content) := by
  have hread : disk.readText path = .ok text := by
    rw [Disk.readText_of_content? hfind hcontent, readText_encode, Text.unifyNewlines_eq_self hreturn]
  have hdecide := decide_of_unlicensed hclass hread hlicensed
  obtain ⟨hdisk, hreports, -⟩ := (processFile_of_stamp hdecide hcheck hfind hcontent).2 hidle
  rw [hdisk, hreports, Disk.content?_put hcontent, if_pos rfl]
  exact ⟨rfl, rfl⟩

namespace HeaderStyle

variable {style : HeaderStyle} {text body : Text}

theorem isSigned_of_mem_headerLines (style : HeaderStyle) :
    ∀ line ∈ style.headerLines ++ [[]], Obsolete.isSigned line = false := by
  intro line hline
  exact (style.plain_of_mem_headerLines line hline).2

theorem length_headerLines_le (style : HeaderStyle) :
    (style.headerLines ++ [[]]).length ≤ Obsolete.window := by
  cases style <;> decide

theorem lines_compose_of_body (style : HeaderStyle) (hreturn : '\r' ∉ body)
    (h : Text.isBlankLine body = false) :
    Text.lines (style.compose body) = style.headerLines ++ [[]] ++ Text.lines (Text.trimEnd body) := by
  have hne : Text.trimEnd body ≠ [] := by simp [Text.trimEnd_eq_nil_iff, h]
  obtain ⟨front, c, htrim, hc⟩ := Text.exists_trimEnd_eq hne
  have hfeed : c ≠ '\n' := by
    rintro rfl
    cases hc
  have hkept : '\r' ∉ front ++ [c] := by
    rw [← htrim]
    exact mt Text.mem_of_mem_trimEnd hreturn
  have hcompose : style.compose body =
      Text.ended (style.headerLines ++ [[]]) ++ (front ++ [c, '\n']) := by
    rw [style.compose_of_body h, htrim]
    simp [header, Text.ended]
  rw [hcompose, Text.lines_ended_append style.isLine_of_mem_headerLines,
    Text.lines_concat_feed hkept hfeed, htrim]

theorem lines_header (style : HeaderStyle) : Text.lines style.header = style.headerLines := by
  have hlines := Text.lines_ended_append
    (fun line hline => style.isLine_of_mem_headerLines line (List.mem_append_left _ hline)) []
  rw [List.append_nil, Text.lines, List.append_nil] at hlines
  exact hlines

/-- A search in a composed text finds the first signature of the body, moved down by the height of the
    header, if the header has left it in the window. -/
theorem findLine?_compose (style : HeaderStyle) (hreturn : '\r' ∉ body) :
    Obsolete.findLine? (Text.lines (style.compose body)) =
      (((Text.lines (Text.trimEnd body)).take (40 - (style.headerLines.length + 1))).findIdx?
        Obsolete.isSigned).map (· + (style.headerLines.length + 1)) := by
  have hlength : (style.headerLines ++ [[]]).length = style.headerLines.length + 1 := by simp
  cases h : Text.isBlankLine body with
  | true =>
      -- nothing stands below the header then, not even the empty line
      have hunsigned : Obsolete.findLine? style.headerLines = none := by
        rw [Obsolete.findLine?, List.findIdx?_eq_none_iff]
        intro line hline
        exact style.isSigned_of_mem_headerLines line (List.mem_append_left _ (List.mem_of_mem_take hline))
      rw [style.compose_of_blank h, lines_header, hunsigned, Text.trimEnd_blank h, Text.lines,
        List.take_nil]
      rfl
  | false =>
      rw [style.lines_compose_of_body hreturn h,
        Obsolete.findLine?_append style.isSigned_of_mem_headerLines style.length_headerLines_le, hlength]
      rfl

theorem stamp_compose_of_unsigned (second style : HeaderStyle) (body : Text)
    (h : Obsolete.strip? (style.compose body) = none) :
    second.stamp (style.compose body) = ⟨second.header ++ '\n' :: style.compose body, false⟩ := by
  obtain ⟨front, c, hcompose, hc⟩ := style.exists_compose_eq body
  have hcontent := second.content_stamp_of_unsigned ⟨front, c, hcompose, hc⟩
    (Obsolete.strip?_eq_none_iff_signed.1 h)
  have habove : Text.ended (second.headerLines ++ [[]]) = second.header ++ ['\n'] := by
    simp [header, Text.ended]
  rw [habove, List.append_assoc, List.singleton_append] at hcontent
  have hreplaced : (second.stamp (style.compose body)).replaced = false := by
    rw [stamp, h]
    rfl
  rw [← hcontent, ← hreplaced]

/-- A search in a stamped text finds the first signature of the trimmed body, as many lines further down
    as the header is high with the empty line below it, and nothing if the body has none so far up that
    it stays in the window. In that case, and in no other, a second stamping removes nothing, and it puts
    its header and an empty line above the first text. So does a job that takes the first text for one
    without a header. -/
theorem stamp_shifts_signatures (style : HeaderStyle) (hreturn : '\r' ∉ text) :
    let new := (style.stamp text).content
    let body := Text.lines (Text.trimEnd (Obsolete.strip text))
    let height := style.headerLines.length + 1
    let signed := {i | i < 40 - height ∧ ∃ line, body[i]? = some line ∧ Obsolete.Signed line}
    (∀ i, IsLeast signed i → Obsolete.findLine? (Text.lines new) = some (i + height)) ∧
      (signed = ∅ → Obsolete.findLine? (Text.lines new) = none) ∧
      ∀ second : HeaderStyle,
        (Obsolete.strip new = new ↔ signed = ∅) ∧
        ((second.stamp new).replaced = false ↔ signed = ∅) ∧
        (signed = ∅ → (second.stamp new).content = second.header ++ '\n' :: new) ∧
        ∀ (job : Job) (disk : Disk) (path : Path) (location : Location),
          Eligibility.classify job.root path = .candidate second →
          disk.find path = .ok location → disk.content? location = some (Utf8.encode new) →
          disk.running ≠ some location → job.check = false → job.licensed new = false →
          ∃ report, (job.processFile disk path).reports = [report] ∧
            (report.action = .added ↔ signed = ∅) ∧ (report.action = .replaced ↔ signed ≠ ∅) ∧
            (signed = ∅ → (job.processFile disk path).disk.content? location =
              some (Utf8.encode (second.header ++ '\n' :: new))) := by
  intro new body height signed
  have hfind : Obsolete.findLine? (Text.lines new) =
      ((body.take (40 - height)).findIdx? Obsolete.isSigned).map (· + height) :=
    style.findLine?_compose (Obsolete.return_not_mem_strip hreturn)
  have hnew : '\r' ∉ new := style.return_not_mem_stamp hreturn
  have hnone : Obsolete.strip? new = none ↔ signed = ∅ := by
    rw [Obsolete.strip?, Option.map_eq_none_iff, hfind, Option.map_eq_none_iff]
    exact Obsolete.findIdx?_take_eq_none_iff
  have hreplaced : ∀ second : HeaderStyle, (second.stamp new).replaced = false ↔ signed = ∅ := by
    intro second
    rw [← hnone, stamp, Option.isSome_eq_false_iff, Option.isNone_iff_eq_none]
  have hsecond : ∀ second : HeaderStyle, signed = ∅ →
      (second.stamp new).content = second.header ++ '\n' :: new := by
    intro second hempty
    have hstamp := stamp_compose_of_unsigned second style _ (hnone.2 hempty)
    exact congrArg Stamped.content hstamp
  refine ⟨?_, ?_, fun second => ⟨?_, hreplaced second, hsecond second, ?_⟩⟩
  · intro i hleast
    rw [hfind, Obsolete.findIdx?_take_eq_some_iff.2 hleast]
    rfl
  · intro hempty
    rw [hfind, Obsolete.findIdx?_take_eq_none_iff.2 hempty]
    rfl
  · rw [← hnone]
    exact Obsolete.strip_eq_self_iff hnew
  · intro job disk path location hclass hplace hcontent hidle hcheck hlicensed
    obtain ⟨hreports, hwritten⟩ :=
      Job.processFile_unlicensed hclass hplace hcontent hnew hidle hcheck hlicensed
    refine ⟨_, hreports, ?_, ?_, ?_⟩
    · exact Decision.report_stamp_added_iff.trans (hreplaced second)
    · exact Decision.report_stamp_replaced_iff.trans (not_congr (hreplaced second))
    · intro hempty
      rw [hwritten, hsecond second hempty]

open Disk in
/-- Below a header of 16 lines, the empty one included, a signature on the second line of the body is
    found on the eighteenth line of the text, and one on the line 25 of the body is out of the window:
    a job that never sees a header puts a second one above the first. -/
theorem stamp_shifts_signatures_samples :
    let sign : Text := ['m', 'i', 't', ' ', 'l', 'i', 'c', 'e', 'n', 's', 'e']
    let near := sign ++ ['\n', '\n', 'a', '\n'] ++ sign
    let far := sign ++ ['\n', '\n'] ++ (List.replicate 24 ['a', '\n']).flatten ++ sign
    let new := (HeaderStyle.html.stamp far).content
    let job : Job := ⟨aliasedSiteRoot, false, fun _ => false⟩
    let path := Path.ofText ['/', 's', '/', 'a', '.', 'j', 's']
    let disk := (aliasedSite []).put aliasedSiteScript (.file (Utf8.encode new))
    '\r' ∉ near ∧ '\r' ∉ far ∧
      Obsolete.findLine? (Text.lines (HeaderStyle.code.stamp near).content) = some 17 ∧
      Obsolete.findLine? (Text.lines new) = none ∧
      (job.processFile disk path).disk.content? aliasedSiteScript =
        some (Utf8.encode (HeaderStyle.code.header ++ '\n' :: new)) := by
  intro sign near far new job path disk
  have hheight : ∀ style : HeaderStyle, style.headerLines.length + 1 = 16 := by
    intro style
    cases style <;> decide
  have hnear : '\r' ∉ near := by decide
  have hfar : '\r' ∉ far := by decide
  obtain ⟨hfound, -, -⟩ := HeaderStyle.code.stamp_shifts_signatures hnear
  obtain ⟨-, hnone, hsecond⟩ := HeaderStyle.html.stamp_shifts_signatures hfar
  simp only [hheight] at hfound hnone hsecond
  have hempty := Obsolete.findIdx?_take_eq_none_iff.1
    (by decide +kernel : ((Text.lines (Text.trimEnd (Obsolete.strip far))).take (40 - 16)).findIdx?
      Obsolete.isSigned = none)
  refine ⟨hnear, hfar, hfound 1 (Obsolete.findIdx?_take_eq_some_iff.1 (by decide +kernel)),
    hnone hempty, ?_⟩
  have hold := (content?_aliasedSite []).1
  have hfind := (find_put hold (Utf8.encode new) path).trans (find_aliasedSite []).1
  have hclass : Eligibility.classify job.root path = .candidate .code := rfl
  obtain ⟨-, -, -, hstamped⟩ := hsecond .code
  obtain ⟨_, -, -, -, hwritten⟩ := hstamped job disk path _ hclass hfind (content?_put_self hold _)
    (Option.some_ne_none _).symm rfl rfl
  exact hwritten hempty

end HeaderStyle

end LicenseStamp

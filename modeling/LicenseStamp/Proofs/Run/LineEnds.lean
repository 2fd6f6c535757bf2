import LicenseStamp.Proofs.Header.FinalFeed
import LicenseStamp.Proofs.Run.Effect
import LicenseStamp.Proofs.Text.LineEnds
import LicenseStamp.Proofs.Tree.Collected

/-! # Line ends do not matter

A file is decided about by its lines. Two files with the same lines get the same report and the
same stamped bytes, whatever spells the ends of the lines. Files that are not stamped keep theirs.
-/

namespace LicenseStamp

namespace Disk

variable {disk : Disk} {path : Path} {location : Location} {old : Bytes}

theorem find_put (hold : disk.content? location = some old) (new : Bytes) (path : Path) :
    (disk.put location (.file new)).find path = disk.find path :=
  find_of_shape (shape_put hold new) path

theorem content?_put_self (hold : disk.content? location = some old) (new : Bytes) :
    (disk.put location (.file new)).content? location = some new := by
  rw [content?_put hold, if_pos rfl]

/-- A text that is put into a file is read from there with its line ends unified. -/
theorem readText_put (hfind : disk.find path = .ok location)
    (hold : disk.content? location = some old) (text : Text) :
    (disk.put location (.file (Utf8.encode text))).readText path =
      .ok (Text.unifyNewlines text) := by
  rw [readText_of_content? ((find_put hold _ path).trans hfind) (content?_put_self hold _),
    readText_encode]

end Disk

/-- Two decisions that come to the same: nothing is to be done, for one reason, or one text is to be
    stamped into the file. -/
inductive Decision.Agrees : Decision → Decision → Prop where
  | unchanged {decision : Decision} (hkeep : decision.action.isChange = false) :
      Agrees decision decision
  | stamp (style : HeaderStyle) (text other : Text) (stamped : Stamped) :
      Agrees (.stamp style text stamped) (.stamp style other stamped)

namespace Job

variable {disk : Disk} {path : Path} {location : Location} {old : Bytes}
  {ended : List (Text × Text.LineEnd)} {last tail text : Text}

/-- A text with or without a line feed behind it is decided about alike. -/
theorem decide_append_tail (root : Path) {before after : Disk} (hreturn : '\r' ∉ text)
    (htail : tail = [] ∨ tail = ['\n']) (hread : before.readText path = .ok text)
    (hread' : after.readText path = .ok (text ++ tail)) :
    let job := Job.standard root false
    ∃ decision decision', job.decide before path = .ok decision ∧
      job.decide after path = .ok decision' ∧ decision.Agrees decision' ∧
      ∀ style text stamped, decision = .stamp style text stamped → '\r' ∉ stamped.content := by
  intro job
  have hmarker : hasMarker (text ++ tail) = hasMarker text := by
    rcases htail with rfl | rfl
    · rw [List.append_nil]
    · exact hasMarker_append_feed text
  have hstamp : ∀ style : HeaderStyle, style.stamp (text ++ tail) = style.stamp text := by
    intro style
    rcases htail with rfl | rfl
    · rw [List.append_nil]
    · exact style.stamp_append_feed hreturn
  cases hclass : Eligibility.classify root path with
  | rejected reason =>
      exact ⟨_, _, decide_of_rejected hclass, decide_of_rejected hclass, .unchanged rfl, nofun⟩
  | candidate style =>
      cases hlicensed : hasMarker text with
      | true =>
          have hlicensed' := hmarker.trans hlicensed
          exact ⟨_, _, decide_of_licensed hclass hread hlicensed,
            decide_of_licensed hclass hread' hlicensed', .unchanged rfl, nofun⟩
      | false =>
          have hlicensed' := hmarker.trans hlicensed
          have hafter := @decide_of_unlicensed job _ _ _ _ hclass hread' hlicensed'
          rw [hstamp] at hafter
          refine ⟨_, _, decide_of_unlicensed hclass hread hlicensed, hafter, .stamp _ _ _ _, ?_⟩
          rintro _ _ _ ⟨rfl, rfl, rfl⟩
          exact style.return_not_mem_stamp hreturn

/-- Two contents of a file that are decided about alike are processed alike. -/
theorem processFile_of_agrees {job : Job} {decision decision' : Decision} {first second : Bytes}
    (hcheck : job.check = false) (hfind : disk.find path = .ok location)
    (hold : disk.content? location = some old)
    (hdecide : job.decide (disk.put location (.file first)) path = .ok decision)
    (hdecide' : job.decide (disk.put location (.file second)) path = .ok decision')
    (hagrees : decision.Agrees decision')
    (hreturn : ∀ style text stamped, decision = .stamp style text stamped →
      '\r' ∉ stamped.content) :
    let done := job.processFile (disk.put location (.file first)) path
    let done' := job.processFile (disk.put location (.file second)) path
    done.reports = done'.reports ∧ done.failure = done'.failure ∧
      (disk.running ≠ some location → ∃ report, done.reports = [report] ∧ done.failure = none) ∧
      ∀ report ∈ done.reports,
        (report.action.isChange = true → ∃ written, 0x0D ∉ written ∧
          done.disk = disk.put location (.file written) ∧
          done'.disk = disk.put location (.file written)) ∧
        (report.action.isChange = false → done.disk = disk.put location (.file first) ∧
          done'.disk = disk.put location (.file second)) := by
  intro done done'
  cases hagrees with
  | unchanged hkeep =>
      obtain ⟨hdisk, hreports, hfailure⟩ :=
        processFile_of_unchanged hdecide (carryOut_of_unchanging hkeep)
      obtain ⟨hdisk', hreports', hfailure'⟩ :=
        processFile_of_unchanged hdecide' (carryOut_of_unchanging hkeep)
      refine ⟨hreports.trans hreports'.symm, hfailure.trans hfailure'.symm,
        fun _ => ⟨_, hreports, hfailure⟩, ?_⟩
      intro report hreport
      obtain rfl := List.mem_singleton.1 (hreports ▸ hreport)
      refine ⟨fun hchange => ?_, fun _ => ⟨hdisk, hdisk'⟩⟩
      cases hkeep.symm.trans hchange
  | stamp style text other stamped =>
      have hfind' := fun content => (Disk.find_put hold content path).trans hfind
      obtain ⟨hbusy, hidle⟩ :=
        processFile_of_stamp hdecide hcheck (hfind' first) (Disk.content?_put_self hold first)
      obtain ⟨hbusy', hidle'⟩ :=
        processFile_of_stamp hdecide' hcheck (hfind' second) (Disk.content?_put_self hold second)
      -- the running program cannot be written, whatever it holds
      by_cases hrunning : disk.running = some location
      · obtain ⟨-, hreports, hfailure⟩ := hbusy hrunning
        obtain ⟨-, hreports', hfailure'⟩ := hbusy' hrunning
        refine ⟨hreports.trans hreports'.symm, hfailure.trans hfailure'.symm,
          fun hidle => absurd hrunning hidle, ?_⟩
        intro report hreport
        rw [hreports] at hreport
        cases hreport
      · obtain ⟨hdisk, hreports, hfailure⟩ := hidle hrunning
        obtain ⟨hdisk', hreports', hfailure'⟩ := hidle' hrunning
        rw [Disk.put_put hold] at hdisk hdisk'
        refine ⟨hreports.trans hreports'.symm, hfailure.trans hfailure'.symm,
          fun _ => ⟨_, hreports, hfailure⟩, ?_⟩
        intro report hreport
        obtain rfl := List.mem_singleton.1 (hreports ▸ hreport)
        refine ⟨fun _ => ⟨_, Utf8.return_not_mem_encode (hreturn _ _ _ rfl), hdisk, hdisk'⟩, ?_⟩
        intro hkept
        exact absurd (isChange_stamp stamped) (Bool.eq_false_iff.1 hkept)

/-- A file whose lines end in any way is processed like one with line feeds only, with or without
    one behind the last line: the reports are the same, a stamped file gets the same bytes
    without carriage returns, and a file that is not stamped keeps its bytes. -/
theorem processFile_of_spelled (root : Path) (hfind : disk.find path = .ok location)
    (hold : disk.content? location = some old) (hlines : ∀ line ∈ ended, Text.IsLine line.1)
    (hlast : Text.IsLine last) (hclear : Text.IsClear ended) (htail : tail = [] ∨ tail = ['\n']) :
    let mixed := disk.put location (.file (Utf8.encode (Text.spell ended last)))
    let plain := disk.put location
      (.file (Utf8.encode (Text.spell (Text.withFeeds ended) last ++ tail)))
    let done := (Job.standard root false).processFile mixed path
    let done' := (Job.standard root false).processFile plain path
    done.reports = done'.reports ∧ done.failure = done'.failure ∧
      (disk.running ≠ some location → ∃ report, done.reports = [report] ∧ done.failure = none) ∧
      ∀ report ∈ done.reports,
        (report.action.isChange = true → ∃ written, 0x0D ∉ written ∧
          done.disk = disk.put location (.file written) ∧
          done'.disk = disk.put location (.file written)) ∧
        (report.action.isChange = false → done.disk = mixed ∧ done'.disk = plain) := by
  intro mixed plain done done'
  have hreturn := Text.return_not_mem_spell_withFeeds hlines hlast hclear
  have hread : mixed.readText path = .ok (Text.spell (Text.withFeeds ended) last) := by
    rw [Disk.readText_put hfind hold, Text.unifyNewlines_spell hlines hlast hclear]
  have hread' : plain.readText path = .ok (Text.spell (Text.withFeeds ended) last ++ tail) := by
    have hreturn' : '\r' ∉ Text.spell (Text.withFeeds ended) last ++ tail := by
      rcases htail with rfl | rfl <;> simpa using hreturn
    rw [Disk.readText_put hfind hold, Text.unifyNewlines_eq_self hreturn']
  obtain ⟨_, _, hdecide, hdecide', hagrees, hstamped⟩ :=
    decide_append_tail root hreturn htail hread hread'
  exact processFile_of_agrees rfl hfind hold hdecide hdecide' hagrees hstamped

open Disk in
/-- Three lines whose ends are all spelled differently are stamped like the same lines with line
    feeds. -/
theorem processFile_of_spelled_aliasedSite :
    let ended : List (Text × Text.LineEnd) := [(['a'], .lone), ([], .pair), (['b'], .feed)]
    let mixed := (aliasedSite []).put aliasedSiteScript
      (.file (Utf8.encode (Text.spell ended ['c'])))
    let plain := (aliasedSite []).put aliasedSiteScript
      (.file (Utf8.encode (Text.spell (Text.withFeeds ended) ['c'] ++ ['\n'])))
    let path := Path.ofText ['/', 's', '/', 'a', '.', 'j', 's']
    let done := (Job.standard aliasedSiteRoot false).processFile mixed path
    let done' := (Job.standard aliasedSiteRoot false).processFile plain path
    (∀ line ∈ ended, Text.IsLine line.1) ∧ Text.IsLine ['c'] ∧ Text.IsClear ended ∧
      done.reports.map FileReport.action = [.added] ∧ done.reports = done'.reports ∧
      done.failure = none ∧ done'.failure = none := by
  intro ended mixed plain path done done'
  have hlines : ∀ line ∈ ended, Text.IsLine line.1 := by
    unfold Text.IsLine
    decide +kernel
  have hlast : Text.IsLine ['c'] := by
    unfold Text.IsLine
    decide +kernel
  have hclear : Text.IsClear ended :=
    .cons_cons (fun _ => by decide) (.cons_cons (fun h => nomatch h) (.singleton _))
  obtain ⟨hreports, hfailure, hdone, -⟩ := processFile_of_spelled aliasedSiteRoot
    (find_aliasedSite []).1 (content?_aliasedSite []).1 hlines hlast hclear (.inr rfl)
  obtain ⟨-, -, hnone⟩ := hdone (by decide)
  refine ⟨hlines, hlast, hclear, ?_, hreports, hnone, hfailure.symm.trans hnone⟩
  decide +kernel

end Job

end LicenseStamp

import LicenseStamp.Console.Report
import LicenseStamp.Proofs.Path.Reported
import LicenseStamp.Proofs.Text.Rejoining
import Mathlib.Data.List.Forall2

/-! # Reading printed reports

A report that is printed without colours is read back line by line: its first line tells whether
anything is changed and whether it is only due, and each line below it is the path of a changed file
behind a dash. So two runs that change different files never print the same report.
-/

namespace LicenseStamp

/-- A path that spells a text without line feeds. -/
def Path.IsOneLine (path : Path) : Prop := ∃ text, path = .ofText text ∧ '\n' ∉ text

namespace Console

/-- What a printed report tells of a run. -/
inductive Told where
  /-- No file is changed. -/
  | nothing
  /-- Some files are changed, or would be. -/
  | files (dryRun : Bool) (changed : List Path)
  deriving DecidableEq

/-- The path on the line of a changed file. -/
def changedPath? : Text → Option Path
  | ' ' :: '-' :: ' ' :: text => some (.ofText text)
  | _ => none

/-- What is to be told of a run. -/
def Told.ofSummary (summary : Summary) : Told :=
  if summary.changed = [] then .nothing else .files summary.dryRun summary.changed

/-- What a text tells when it is read as a printed report. -/
def Told.read? (printed : Text) : Option Told :=
  match (printed.splitOn '\n').dropLast with
  | [] => none
  | [line] => if line = nothingToDo then some .nothing else none
  | first :: rest => do
      let dryRun ← [false, true].find? fun dryRun => banner dryRun = first
      let changed ← rest.mapM changedPath?
      return .files dryRun changed

/-- The lines of a printed report. -/
def reportLines (summary : Summary) : List Text :=
  if summary.changed = [] then [nothingToDo]
  else banner summary.dryRun :: summary.changed.map fun path => " - ".toList ++ path.display

variable {summary other : Summary} {mode otherMode : OutputMode} {paths : List Path} {path : Path}

theorem report_eq_ended (hmode : mode ≠ .quiet) (summary : Summary) :
    report mode false summary = Text.ended (reportLines summary) := by
  rw [report, if_neg hmode, reportLines, Summary.hasChanges]
  cases hchanged : summary.changed with
  | nil => rfl
  | cons path rest =>
      rw [if_neg (List.cons_ne_nil path rest), Text.ended_cons, Text.ended, List.flatMap_map]
      rfl

theorem feed_not_mem_banner (dryRun : Bool) : '\n' ∉ banner dryRun := by
  cases dryRun <;> decide +kernel

theorem find?_banner (dryRun : Bool) :
    ([false, true].find? fun other => banner other = banner dryRun) = some dryRun := by
  cases dryRun <;> rfl

theorem display_of_isOneLine (h : path.IsOneLine) : '\n' ∉ path.display ∧ .ofText path.display = path := by
  obtain ⟨text, rfl, hfeed⟩ := h
  rw [Path.ofText, Path.display, Utf8.decodeLossy_encode]
  exact ⟨hfeed, rfl⟩

theorem feed_not_mem_reportLines (h : ∀ path ∈ summary.changed, path.IsOneLine) :
    ∀ line ∈ reportLines summary, '\n' ∉ line := by
  intro line hline
  unfold reportLines at hline
  split at hline
  · obtain rfl := List.mem_singleton.1 hline
    decide +kernel
  · rcases List.mem_cons.1 hline with rfl | hpath
    · exact feed_not_mem_banner _
    · obtain ⟨path, hmem, rfl⟩ := List.mem_map.1 hpath
      rw [List.mem_append, not_or]
      exact ⟨by decide +kernel, (display_of_isOneLine (h path hmem)).1⟩

theorem splitOn_report (hmode : mode ≠ .quiet) (h : ∀ path ∈ summary.changed, path.IsOneLine) :
    (report mode false summary).splitOn '\n' = reportLines summary ++ [[]] := by
  rw [report_eq_ended hmode, Text.splitOn_ended (feed_not_mem_reportLines h)]

theorem mapM_changedPath? (h : ∀ path ∈ paths, path.IsOneLine) :
    (paths.map fun path => " - ".toList ++ path.display).mapM changedPath? = some paths := by
  have hlines : ∀ path ∈ paths, changedPath? (" - ".toList ++ path.display) = some (id path) :=
    fun path hpath => congrArg some (display_of_isOneLine (h path hpath)).2
  rw [Text.mapM_map_eq_some hlines, List.map_id]

theorem read?_report (hmode : mode ≠ .quiet) (h : ∀ path ∈ summary.changed, path.IsOneLine) :
    Told.read? (report mode false summary) = some (.ofSummary summary) := by
  rw [Told.read?, splitOn_report hmode h, List.dropLast_concat, reportLines, Told.ofSummary]
  cases hchanged : summary.changed with
  | nil => rfl
  | cons path rest =>
      rw [hchanged] at h
      have hpaths := mapM_changedPath? h
      rw [List.map_cons] at hpaths
      simp only [if_neg (List.cons_ne_nil path rest), List.map_cons, find?_banner, hpaths]
      rfl

theorem ofSummary_inj (h : Told.ofSummary other = .ofSummary summary) :
    other.changed = summary.changed ∧ (other.changed ≠ [] → other.dryRun = summary.dryRun) := by
  unfold Told.ofSummary at h
  split at h <;> split at h
  next hnone hnone' => exact ⟨hnone.trans hnone'.symm, fun hsome => absurd hnone hsome⟩
  · cases h
  · cases h
  · obtain ⟨hmode, hchanged⟩ := Told.files.inj h
    exact ⟨hchanged, fun _ => hmode⟩

theorem nothingToDo_ne_banner (dryRun : Bool) : nothingToDo ≠ banner dryRun := by
  cases dryRun <;> decide +kernel

/-- A report without colours is read back from its lines. They are the one line that tells of no
    changes if there are none, and otherwise the banner of the run with one line for each path, in
    order, that holds the path behind a dash. What they tell is the list of the changed files and, unless
    it is empty, whether the run only checked. -/
theorem report_reads (hmode : mode ≠ .quiet) (h : ∀ path ∈ summary.changed, path.IsOneLine) :
    let printed := report mode false summary
    (printed.splitOn '\n' = [nothingToDo, []] ↔ summary.changed = []) ∧
      (summary.changed ≠ [] → ∃ shown, printed.splitOn '\n' = banner summary.dryRun :: shown ++ [[]] ∧
        List.Forall₂ (fun line path => ∃ text, line = " - ".toList ++ text ∧ .ofText text = path)
          shown summary.changed) ∧
      Told.read? printed = some (.ofSummary summary) ∧
      ∀ otherMode other, otherMode ≠ .quiet → (∀ path ∈ other.changed, path.IsOneLine) →
        report otherMode false other = printed →
          other.changed = summary.changed ∧ (other.changed ≠ [] → other.dryRun = summary.dryRun) := by
  intro printed
  have hsplit : printed.splitOn '\n' = reportLines summary ++ [[]] := splitOn_report hmode h
  have hread : Told.read? printed = some (.ofSummary summary) := read?_report hmode h
  refine ⟨⟨?_, ?_⟩, ?_, hread, ?_⟩
  · intro hnothing
    by_contra hchanged
    rw [hsplit, reportLines, if_neg hchanged] at hnothing
    exact nothingToDo_ne_banner _ (List.cons.inj hnothing).1.symm
  · intro hchanged
    rw [hsplit, reportLines, if_pos hchanged]
    rfl
  · intro hchanged
    rw [hsplit, reportLines, if_neg hchanged]
    refine ⟨_, rfl, ?_⟩
    rw [List.forall₂_map_left_iff, List.forall₂_same]
    intro path hpath
    exact ⟨path.display, rfl, (display_of_isOneLine (h path hpath)).2⟩
  · intro otherMode other hother hlines hsame
    apply ofSummary_inj
    apply Option.some.inj
    rw [← read?_report hother hlines, hsame, hread]

/-- File names that look like a banner, like the line of a changed file, or hold a carriage return. -/
theorem report_reads_lookalikes :
    let names := ["Updated headers for:".toList, " - a.js".toList, ['b', '\r', '.', 'j', 's']]
    let summary : Summary := ⟨names.map .ofText, 3, 3, 0, 0, 0, true⟩
    (∀ path ∈ summary.changed, path.IsOneLine) ∧
      report .normal false summary =
        "Headers would be updated for:\n - Updated headers for:\n -  - a.js\n - b\r.js\n".toList ∧
      report .verbose false { summary with dryRun := false } =
        "Updated headers for:\n - Updated headers for:\n -  - a.js\n - b\r.js\n".toList ∧
      report .normal false { summary with changed := [] } = "No header updates needed.\n".toList ∧
      Told.read? (report .normal false summary) = some (.files true (names.map .ofText)) ∧
      report .verbose false { summary with dryRun := false } ≠ report .normal false summary := by
  intro names summary
  have hlines : ∀ path ∈ summary.changed, path.IsOneLine := by
    intro path hpath
    obtain ⟨text, htext, rfl⟩ := List.mem_map.1 hpath
    exact ⟨text, rfl, by revert text; decide +kernel⟩
  obtain ⟨-, -, hread, hsame⟩ := report_reads (by decide : OutputMode.normal ≠ .quiet) hlines
  refine ⟨hlines, by decide +kernel, by decide +kernel, by decide +kernel, hread, fun h => ?_⟩
  cases (hsame .verbose { summary with dryRun := false } (by decide) hlines h).2 (List.cons_ne_nil _ _)

end Console

end LicenseStamp

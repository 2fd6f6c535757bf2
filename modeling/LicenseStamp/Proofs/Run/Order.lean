import LicenseStamp.Proofs.Path.Order
import LicenseStamp.Proofs.Path.Relative
import LicenseStamp.Proofs.Report.Summary
import LicenseStamp.Proofs.Run.Race
import LicenseStamp.Proofs.Tree.Extensionality
import Mathlib.Data.List.Perm.Basic

/-! # The order of processing

The files that a walk collects may be processed in any order. Every order succeeds or none does,
and the reports count the same actions. The disk is the same too if candidates that lead to one
file agree on the style, and the reports are the same ones if no two candidates lead to one file.
-/

namespace LicenseStamp

namespace Job

variable {job : Job} {disk first second middle middle' after after' : Disk} {path other : Path}
  {location : Location} {content : Bytes} {style : HeaderStyle} {files files' : List Path}
  {report later report' later' : FileReport} {reports reports' : List FileReport}
  {failure : Option Failure}

/-- Candidates that lead to one file get headers of one style. -/
def AgreesOnStyle (job : Job) (disk : Disk) (files : List Path) : Prop :=
  ∀ path ∈ files, ∀ other ∈ files, ∀ location style style',
    disk.find path = .ok location → disk.find other = .ok location →
    Eligibility.classify job.root path = .candidate style →
    Eligibility.classify job.root other = .candidate style' → style = style'

/-- No two candidates lead to one file. -/
def KeepsApart (job : Job) (disk : Disk) (files : List Path) : Prop :=
  ∀ path ∈ files, ∀ other ∈ files, ∀ location, disk.find path = .ok location →
    disk.find other = .ok location → job.Candidate path → job.Candidate other → path = other

/-- Two neighbours that change places report the same actions, perhaps about one another. -/
theorem perm_actions_swap (hx : job.Processed first path middle [report] none)
    (hy : job.Processed middle other after [later] none)
    (hy' : job.Processed second other middle' [report'] none)
    (hx' : job.Processed middle' path after' [later'] none) (h : job.Alike first second)
    (hpath : first.LeadsToFile path) (hother : first.LeadsToFile other)
    (hstamps : job.AcceptsStamps) (hcheck : job.check = false) :
    [report.action, later.action].Perm [report'.action, later'.action] := by
  by_cases hrace : ∃ text, job.Race first path other text
  · obtain ⟨text, hrace⟩ := hrace
    have hrace' := (h.race hrace).symm
    rw [hrace.action_first hx, hrace.action_second hx hy hstamps hcheck, hrace'.action_first hy',
      hrace'.action_second hy' hx' hstamps hcheck]
  -- otherwise each of the two is decided about as if it came first
  · have hlater := hx.decide_of_not_race hstamps hother fun text hthis => hrace ⟨text, hthis⟩
    have hlater' := hy'.decide_of_not_race hstamps (hpath.of_shape h.shape_eq) fun text hthis =>
      hrace ⟨text, (h.symm.race hthis).symm⟩
    obtain ⟨decision, hdecision, rfl⟩ := hx.exists_decision
    obtain ⟨next, hnext, rfl⟩ := hy.exists_decision
    obtain ⟨decision', hdecision', rfl⟩ := hy'.exists_decision
    obtain ⟨next', hnext', rfl⟩ := hx'.exists_decision
    rw [hlater, ← h.decide_eq hother, hdecision'] at hnext
    rw [hlater', h.decide_eq hpath, hdecision] at hnext'
    obtain rfl := Except.ok.inj hnext
    obtain rfl := Except.ok.inj hnext'
    exact .swap _ _ _

/-- A changed file holds the stamped text of a candidate that leads to it. -/
theorem Processed.exists_written (h : job.Processed disk path after reports failure)
    (hchanged : after.content? location ≠ disk.content? location) :
    ∃ style content text, Eligibility.classify job.root path = .candidate style ∧
      disk.find path = .ok location ∧ disk.content? location = some content ∧
      content.readText = .ok text ∧
      after.content? location = some (Utf8.encode (style.stamp text).content) := by
  cases h with
  | unread | unwritten | skipped | kept | checked | forgotten => exact absurd rfl hchanged
  | @stamped style text goal content hclass hfind hcontent hread =>
      by_cases hgoal : location = goal
      · subst hgoal
        exact ⟨style, content, text, hclass, hfind, hcontent, hread, by
          rw [Disk.content?_put hcontent, if_pos rfl]⟩
      · rw [Disk.content?_put hcontent, if_neg hgoal] at hchanged
        exact absurd rfl hchanged

namespace Runs

theorem exists_written (h : job.Runs disk files after reports failure)
    (hstamps : job.AcceptsStamps)
    (hchanged : after.content? location ≠ disk.content? location) :
    ∃ path ∈ files, ∃ style content text, Eligibility.classify job.root path = .candidate style ∧
      disk.find path = .ok location ∧ disk.content? location = some content ∧
      content.readText = .ok text ∧
      after.content? location = some (Utf8.encode (style.stamp text).content) := by
  induction h with
  | done | stopped => exact absurd rfl hchanged
  | @next disk middle after path rest report reports failure hstep onward ih =>
      by_cases hmiddle : middle.content? location = disk.content? location
      · obtain ⟨other, hother, style, content, text, hclass, hfind, hcontent, hrest⟩ :=
          ih (hmiddle ▸ hchanged)
        rw [Disk.find_of_shape hstep.shape_eq] at hfind
        exact ⟨other, List.mem_cons_of_mem _ hother, style, content, text, hclass, hfind,
          hmiddle ▸ hcontent, hrest⟩
      -- what a step wrote, the later ones keep
      · obtain ⟨style, content, text, hclass, hfind, hcontent, hread, hnew⟩ :=
          hstep.exists_written hmiddle
        exact ⟨path, List.mem_cons_self, style, content, text, hclass, hfind, hcontent, hread,
          onward.content?_of_accepts hnew (hstamps style text)⟩

/-- Whatever the order, the same actions are reported, each as often. -/
theorem perm_actions (one : job.Runs first files after reports none)
    (two : job.Runs second files' after' reports' none) (hperm : files.Perm files')
    (h : job.Alike first second) (hfiles : ∀ path ∈ files, first.LeadsToFile path)
    (hstamps : job.AcceptsStamps) (hcheck : job.check = false) :
    (reports.map FileReport.action).Perm (reports'.map FileReport.action) := by
  induction hperm generalizing first second after after' reports reports' with
  | nil =>
      cases one
      cases two
      exact .refl _
  | cons path hrest ih =>
      cases one with
      | next hstep onward =>
          cases two with
          | next hstep' onward' =>
              have hsame := reports_eq (.next hstep .done) (.next hstep' .done) h
                (by simpa using hfiles path List.mem_cons_self) hstamps
              obtain rfl := List.singleton_inj.1 hsame
              have hnext := alike (.next hstep .done) (.next hstep' .done) h (by simp) hstamps
              exact .cons _ (ih onward onward' hnext (hstep.leadsToFile_rest hfiles))
  | swap path other rest =>
      cases one with
      | next hy onward =>
          cases onward with
          | next hx onward =>
              cases two with
              | next hx' onward' =>
                  cases onward' with
                  | next hy' onward' =>
                      have hfirst := perm_actions_swap hy hx hx' hy' h
                        (hfiles _ List.mem_cons_self)
                        (hfiles _ (List.mem_cons_of_mem _ List.mem_cons_self)) hstamps hcheck
                      have hnext := alike (.next hy (.next hx .done)) (.next hx' (.next hy' .done)) h
                        (by simp [or_comm]) hstamps
                      have hrest := hx.leadsToFile_rest (hy.leadsToFile_rest hfiles)
                      rw [reports_eq onward onward' hnext hrest hstamps]
                      exact hfirst.append_right (List.map FileReport.action _)
  | @trans left mid right hleft hright ihleft ihright =>
      have hmid : ∀ path ∈ mid, first.LeadsToFile path := fun path hpath =>
        hfiles path (hleft.mem_iff.2 hpath)
      -- the order in between succeeds as the first one does
      have between := runs_processFiles job first mid
      have hsuccess := (between.failure_eq_none_iff hmid).2 fun path hpath =>
        (one.failure_eq_none_iff hfiles).1 rfl path (hleft.mem_iff.2 hpath)
      rw [hsuccess] at between
      exact (ihleft one between (.refl job first) hfiles).trans (ihright between two h hmid)

/-- The disk after a run over files in any order, if the styles agree. -/
theorem eq_of_agreesOnStyle (one : job.Runs disk files after reports none)
    (two : job.Runs disk files' after' reports' none) (hwf : disk.top.isWellFormed = true)
    (hmem : ∀ path, path ∈ files' ↔ path ∈ files) (hstamps : job.AcceptsStamps)
    (hagrees : job.AgreesOnStyle disk files) : after' = after := by
  have hwf' := Disk.isWellFormed_of_shape one.shape_eq hwf
  refine Disk.eq_of_content? hwf' (two.shape_eq.trans one.shape_eq.symm) fun location => ?_
  have hchanged : after'.content? location ≠ disk.content? location ↔
      after.content? location ≠ disk.content? location := by
    rw [one.changed_iff_of_success hstamps, two.changed_iff_of_success hstamps]
    simp only [hmem]
  by_cases hkept : after.content? location = disk.content? location
  · rw [not_ne_iff.1 fun hne => hchanged.1 hne hkept, hkept]
  · obtain ⟨path, hpath, style, content, text, hclass, hfind, hcontent, hread, hnew⟩ :=
      one.exists_written hstamps hkept
    obtain ⟨other, hother, style', content', text', hclass', hfind', hcontent', hread', hnew'⟩ :=
      two.exists_written hstamps (hchanged.2 hkept)
    obtain rfl := hagrees path hpath other ((hmem other).1 hother) location style style' hfind
      hfind' hclass hclass'
    obtain rfl := Option.some.inj (hcontent.symm.trans hcontent')
    obtain rfl := Except.ok.inj (hread.symm.trans hread')
    rw [hnew, hnew']

/-- Where no two candidates lead to one file, each report tells of the file as it was before the
    run. -/
theorem reported_of_keepsApart (h : job.Runs disk files after reports none) (hnodup : files.Nodup)
    (hfiles : ∀ path ∈ files, disk.LeadsToFile path) (hstamps : job.AcceptsStamps)
    (hapart : job.KeepsApart disk files) :
    List.Forall₂ (fun path report => ∃ decision, job.decide disk path = .ok decision ∧
      report = decision.report (path.relativeTo job.root)) files reports := by
  rw [List.forall₂_iff_get]
  refine ⟨h.length_of_success.symm, fun i hi hi' => ?_⟩
  obtain ⟨middle, decision, hruns, hahead, hdecision, hreport⟩ := h.exists_decision hstamps
    (List.getElem?_eq_getElem hi) (List.getElem?_eq_getElem hi')
  have hmem := List.getElem_mem hi
  rcases hahead.decide_cases (hfiles _ hmem) with
    hsame | ⟨style, text, location, hfind, hne, hstamp, -⟩
  · exact ⟨decision, hsame.symm.trans hdecision, hreport⟩
  -- otherwise the path itself would have come before
  · obtain ⟨⟨earlier, hearlier, hcand, hfind'⟩, -, -⟩ := hruns.of_changed hne
    have hbefore := List.mem_of_mem_take hearlier
    obtain ⟨hclass, -⟩ := misses_of_decide (hfiles _ hmem) hstamp
    obtain rfl := hapart _ (List.mem_of_mem_take hbefore) _ hmem location hfind' hfind hcand
      (.of_classify hclass)
    obtain ⟨j, hj, hsame⟩ := List.mem_take_iff_getElem.1 hbefore
    obtain rfl := (hnodup.getElem_inj_iff).1 hsame
    omega

theorem perm_reports (one : job.Runs disk files after reports none)
    (two : job.Runs disk files' after' reports' none) (hperm : files.Perm files')
    (hnodup : files.Nodup) (hfiles : ∀ path ∈ files, disk.LeadsToFile path)
    (hstamps : job.AcceptsStamps) (hapart : job.KeepsApart disk files) : reports.Perm reports' := by
  have hfiles' : ∀ path ∈ files', disk.LeadsToFile path := fun path hpath =>
    hfiles path (hperm.mem_iff.2 hpath)
  have hapart' : job.KeepsApart disk files' := fun path hpath other hother =>
    hapart path (hperm.mem_iff.2 hpath) other (hperm.mem_iff.2 hother)
  refine List.rel_perm_imp ?_ (one.reported_of_keepsApart hnodup hfiles hstamps hapart)
    (two.reported_of_keepsApart (hperm.nodup_iff.1 hnodup) hfiles' hstamps hapart') hperm
  rintro path report report' ⟨decision, hdecision, rfl⟩ ⟨decision', hdecision', rfl⟩
  rw [Except.ok.inj (hdecision.symm.trans hdecision')]

end Runs

theorem changed_eq_of_perm {root : Path} (hwf : disk.top.isWellFormed = true)
    (hcollect : disk.collect root = .ok files) (hperm : reports.Perm reports')
    (hpaths : ∀ report ∈ reports, ∃ path ∈ files, report.path = path.relativeTo root)
    (dryRun : Bool) :
    (Summary.ofReports reports dryRun).changed = (Summary.ofReports reports' dryRun).changed := by
  obtain ⟨⟨inside, hroot⟩, -⟩ := Disk.exists_of_collect hcollect
  refine Path.sort_eq_of_perm ((hperm.filter _).map _) ?_
  have hplaces : ∀ path ∈ (reports.filter fun report => report.action.isChange).map (·.path),
      ∃ place : Location, (∀ name ∈ place, Bytes.isName name = true) ∧
        path = (root.descend place).relativeTo root := by
    intro path hpath
    obtain ⟨report, hreport, rfl⟩ := List.mem_map.1 hpath
    obtain ⟨file, hfile, hrelative⟩ := hpaths report (List.mem_filter.1 hreport).1
    obtain ⟨place, hplace, rfl⟩ := Disk.exists_place_of_mem_collect hwf hcollect hfile
    exact ⟨place, hplace, hrelative⟩
  intro a ha b hb hsame
  obtain ⟨place, hplace, rfl⟩ := hplaces a ha
  obtain ⟨place', hplace', rfl⟩ := hplaces b hb
  rw [Path.eq_of_components_relativeTo (Disk.bytes_ne_nil_of_find hroot) hplace hplace' hsame]

open Disk in
theorem classify_aliasedSite :
    Eligibility.classify aliasedSiteRoot (.ofText ['/', 's', '/', 'a', '.', 'j', 's']) =
        .candidate .code ∧
      Eligibility.classify aliasedSiteRoot (.ofText ['/', 's', '/', 'l', '.', 'j', 's']) =
        .candidate .code ∧
      Eligibility.classify aliasedSiteRoot (.ofText ['/', 's', '/', 'p', '.', 'm', 'd']) =
        .candidate .html := by
  decide +kernel

open Disk in
theorem agreesOnStyle_aliasedSite (page : Bytes) :
    (Job.standard aliasedSiteRoot false).AgreesOnStyle (aliasedSite page) aliasedSiteFiles := by
  obtain ⟨hscript, hlink, hpage⟩ := find_aliasedSite page
  obtain ⟨hcode, hcode', hhtml⟩ := classify_aliasedSite
  have hstyle : ∀ path ∈ aliasedSiteFiles, ∀ location style,
      (aliasedSite page).find path = .ok location →
      Eligibility.classify aliasedSiteRoot path = .candidate style →
      style = if location = aliasedSiteScript then .code else .html := by
    intro path hpath location style hfind hclass
    simp only [aliasedSiteFiles, List.mem_cons, List.not_mem_nil, or_false] at hpath
    rcases hpath with rfl | rfl | rfl
    · obtain rfl := Except.ok.inj (hscript.symm.trans hfind)
      exact Eligibility.candidate.inj (hclass.symm.trans hcode)
    · obtain rfl := Except.ok.inj (hlink.symm.trans hfind)
      exact Eligibility.candidate.inj (hclass.symm.trans hcode')
    · obtain rfl := Except.ok.inj (hpage.symm.trans hfind)
      exact Eligibility.candidate.inj (hclass.symm.trans hhtml)
  intro path hpath other hother location style style' hfind hfind' hclass hclass'
  rw [hstyle path hpath location style hfind hclass,
    hstyle other hother location style' hfind' hclass']

open Disk in
theorem keepsApart_linkedSite {files : List Path}
    (hcollect : linkedSite.collect linkedSiteRoot = .ok files) :
    (Job.standard linkedSiteRoot false).KeepsApart linkedSite files := by
  obtain rfl := Except.ok.inj (collect_linkedSite.symm.trans hcollect)
  have hscript : linkedSite.find (.ofText ['/', 's', '/', 'a', '.', 'j', 's']) =
      .ok [Utf8.encode ['s'], Utf8.encode ['a', '.', 'j', 's']] := rfl
  have hne : [Utf8.encode ['s'], Utf8.encode ['a', '.', 'j', 's']] ≠ linkedSiteGoal := by
    decide +kernel
  intro path hpath other hother location hfind hfind' _ _
  rcases List.mem_pair.1 hpath with rfl | rfl <;> rcases List.mem_pair.1 hother with rfl | rfl
  · rfl
  · rw [hscript] at hfind
    rw [find_linkedSite_link] at hfind'
    exact absurd (Except.ok.inj (hfind.trans hfind'.symm)) hne
  · rw [find_linkedSite_link] at hfind
    rw [hscript] at hfind'
    exact absurd (Except.ok.inj (hfind'.trans hfind.symm)) hne
  · rfl

/-- All orders of the collected files fail or succeed together, and count the same actions. They
    end on one disk if candidates that lead to one file agree on the style. They give the same
    reports and the same list of changed files if no two candidates lead to one file. -/
theorem processFiles_of_perm {root : Path} {disk : Disk} {files one two : List Path}
    (hwf : disk.top.isWellFormed = true) (hcollect : disk.collect root = .ok files)
    (hone : one.Perm files) (htwo : two.Perm files) :
    let job := Job.standard root false
    let first := job.processFiles disk one
    let second := job.processFiles disk two
    (first.failure = none ↔ second.failure = none) ∧
      (first.failure = none →
        ((job.summary first).seen = (job.summary second).seen ∧
          (job.summary first).candidates = (job.summary second).candidates ∧
          (job.summary first).changed.length = (job.summary second).changed.length ∧
          (job.summary first).replaced = (job.summary second).replaced ∧
          (job.summary first).compliant = (job.summary second).compliant ∧
          (job.summary first).skipped = (job.summary second).skipped) ∧
        (job.AgreesOnStyle disk files → first.disk = second.disk) ∧
        (job.KeepsApart disk files → first.reports.Perm second.reports ∧
          (job.summary first).changed = (job.summary second).changed)) := by
  intro job first second
  have hstamps : job.AcceptsStamps := acceptsStamps_standard root false
  have hcollected : ∀ path ∈ files, disk.LeadsToFile path := fun path hpath =>
    Disk.leadsToFile_of_mem_collect hwf hcollect hpath
  have hfiles : ∀ path ∈ one, disk.LeadsToFile path := fun path hpath =>
    hcollected path (hone.mem_iff.1 hpath)
  have hperm : one.Perm two := hone.trans htwo.symm
  have run : job.Runs disk one first.disk first.reports first.failure := runs_processFiles job disk one
  have run' : job.Runs disk two second.disk second.reports second.failure :=
    runs_processFiles job disk two
  have hiff : first.failure = none ↔ second.failure = none := by
    rw [run.failure_eq_none_iff hfiles, run'.failure_eq_none_iff fun path hpath =>
      hcollected path (htwo.mem_iff.1 hpath)]
    simp only [hperm.mem_iff]
  refine ⟨hiff, fun hsuccess => ?_⟩
  rw [hsuccess] at run
  rw [hiff.1 hsuccess] at run'
  refine ⟨?_, fun hagrees => ?_, fun hapart => ?_⟩
  · exact Summary.counters_of_perm
      (run.perm_actions run' hperm (.refl job disk) hfiles hstamps rfl) false
  · have hagrees' : job.AgreesOnStyle disk one := fun path hpath other hother =>
      hagrees path (hone.mem_iff.1 hpath) other (hone.mem_iff.1 hother)
    exact (run.eq_of_agreesOnStyle run' hwf (fun _ => hperm.mem_iff.symm) hstamps hagrees').symm
  · have hapart' : job.KeepsApart disk one := fun path hpath other hother =>
      hapart path (hone.mem_iff.1 hpath) other (hone.mem_iff.1 hother)
    have hnodup := hone.nodup_iff.2 (Disk.nodup_collect hwf hcollect)
    have hreports := run.perm_reports run' hperm hnodup hfiles hstamps hapart'
    refine ⟨hreports, changed_eq_of_perm hwf hcollect hreports ?_ false⟩
    intro report hreport
    have hpaths := map_path_of_reported run.reported
    rw [run.length_of_success, List.take_length] at hpaths
    have hmem : report.path ∈ one.map fun path => path.relativeTo job.root :=
      hpaths ▸ List.mem_map_of_mem hreport
    obtain ⟨path, hpath, hrelative⟩ := List.mem_map.1 hmem
    exact ⟨path, hone.mem_iff.1 hpath, hrelative.symm⟩

open Disk in
/-- Whichever path of the script comes first, the script is stamped once and in the same way. On
    the site where the link leads to a script of its own the reports change places and nothing
    else. -/
theorem processFiles_of_perm_sites :
    (let job := Job.standard aliasedSiteRoot false
      let first := job.processFiles (aliasedSite []) aliasedSiteFiles
      let second := job.processFiles (aliasedSite []) aliasedSiteFiles.reverse
      first.failure = none ∧ second.failure = none ∧ first.disk = second.disk ∧
        (job.summary first).compliant = (job.summary second).compliant) ∧
    ∃ files, linkedSite.collect linkedSiteRoot = .ok files ∧ files.length = 2 ∧
      let job := Job.standard linkedSiteRoot false
      let first := job.processFiles linkedSite files
      let second := job.processFiles linkedSite files.reverse
      first.failure = none ∧ first.reports.Perm second.reports ∧
        (job.summary first).changed = (job.summary second).changed := by
  constructor
  · intro job first second
    obtain ⟨hiff, hsuccess⟩ := processFiles_of_perm (isWellFormed_aliasedSite [])
      (collect_aliasedSite []) (.refl _) (List.reverse_perm _)
    have hnone : first.failure = none :=
      (run_eq_processFiles (collect_aliasedSite [])).2.2.symm.trans (run_aliasedSite_succeeds false)
    obtain ⟨⟨-, -, -, -, hcompliant, -⟩, hdisk, -⟩ := hsuccess hnone
    exact ⟨hnone, hiff.1 hnone, hdisk (agreesOnStyle_aliasedSite []), hcompliant⟩
  · refine ⟨_, collect_linkedSite, rfl, ?_⟩
    intro job first second
    obtain ⟨-, hsuccess⟩ := processFiles_of_perm isWellFormed_linkedSite collect_linkedSite
      (.refl _) (List.reverse_perm _)
    have hnone : first.failure = none :=
      (run_eq_processFiles collect_linkedSite).2.2.symm.trans (run_linkedSite_succeeds false)
    obtain ⟨-, -, hreports⟩ := hsuccess hnone
    exact ⟨hnone, hreports (keepsApart_linkedSite collect_linkedSite)⟩

end Job

end LicenseStamp

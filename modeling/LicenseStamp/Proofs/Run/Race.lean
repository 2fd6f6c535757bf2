import LicenseStamp.Proofs.Run.Decision

/-! # Two orders of the same files

Two candidates race if they lead to one file without the header: whichever comes first stamps
it, in its own style, and the other one keeps it. All other files do not notice in which order
they are processed. So two runs over the same files end on disks that differ at most in how
some file says that it has the header, and no later decision depends on that.
-/

namespace LicenseStamp

namespace Job

variable {job : Job} {disk first second middle after after' : Disk} {path other : Path}
  {files files' : List Path} {report : FileReport} {reports reports' : List FileReport}
  {text : Text}

/-- Disks with the same files, except that two files with the header may say different things. -/
structure Alike (job : Job) (first second : Disk) : Prop where
  shape_eq : second.shape = first.shape
  content : ∀ location, second.content? location = first.content? location ∨
    (∃ content, first.content? location = some content ∧ job.Accepts content) ∧
      ∃ content, second.content? location = some content ∧ job.Accepts content

/-- Two candidates that lead to one file, which holds a text without the header. -/
structure Race (job : Job) (disk : Disk) (path other : Path) (text : Text) : Prop where
  candidate : job.Candidate path
  candidate' : job.Candidate other
  meet : ∃ location content, disk.find path = .ok location ∧ disk.find other = .ok location ∧
    disk.content? location = some content ∧ content.readText = .ok text ∧ job.licensed text = false

namespace Alike

theorem refl (job : Job) (disk : Disk) : job.Alike disk disk := ⟨rfl, fun _ => .inl rfl⟩

theorem decide_eq (h : job.Alike first second) (hfile : first.LeadsToFile path) :
    job.decide second path = job.decide first path := by
  cases hclass : Eligibility.classify job.root path with
  | rejected reason => rw [decide_of_rejected hclass, decide_of_rejected hclass]
  | candidate style =>
      by_cases hsame : ∀ location, first.find path = .ok location →
          second.content? location = first.content? location
      · exact decide_congr job h.shape_eq hfile hsame
      · push Not at hsame
        obtain ⟨location, hfind, hne⟩ := hsame
        obtain ⟨⟨old, hold, haccepts⟩, new, hnew, haccepts'⟩ :=
          (h.content location).resolve_left hne
        have hfind' := (Disk.find_of_shape h.shape_eq path).trans hfind
        rw [decide_of_accepts hclass hfind hold haccepts,
          decide_of_accepts hclass hfind' hnew haccepts']

theorem race (h : job.Alike first second) (hrace : job.Race first path other text) :
    job.Race second path other text := by
  obtain ⟨location, content, hpath, hother, hcontent, hread, hlicensed⟩ := hrace.meet
  refine ⟨hrace.candidate, hrace.candidate', location, content, ?_, ?_, ?_, hread, hlicensed⟩
  · rw [Disk.find_of_shape h.shape_eq, hpath]
  · rw [Disk.find_of_shape h.shape_eq, hother]
  · rcases h.content location with hsame | ⟨⟨old, hold, haccepts⟩, -⟩
    · rw [hsame, hcontent]
    · obtain rfl := Option.some.inj (hold.symm.trans hcontent)
      exact absurd ⟨text, hread, hlicensed⟩ haccepts.not_misses

theorem symm (h : job.Alike first second) : job.Alike second first where
  shape_eq := h.shape_eq.symm
  content location := (h.content location).imp Eq.symm And.symm

end Alike

namespace Race

theorem symm (h : job.Race disk path other text) : job.Race disk other path text := by
  obtain ⟨location, content, hpath, hother, hcontent, hread, hlicensed⟩ := h.meet
  exact ⟨h.candidate', h.candidate, location, content, hother, hpath, hcontent, hread, hlicensed⟩

/-- The first of the two stamps the file. What that does to the text depends on the text alone. -/
theorem action_first (h : job.Race disk path other text)
    (hstep : job.Processed disk path after [report] none) :
    report.action = if (Obsolete.strip? text).isSome then .replaced else .added := by
  obtain ⟨style, hclass⟩ := h.candidate
  obtain ⟨location, content, hpath, -, hcontent, hread, hlicensed⟩ := h.meet
  obtain ⟨decision, hdecision, rfl⟩ := hstep.exists_decision
  rw [decide_of_unlicensed hclass ((Disk.readText_of_content? hpath hcontent).trans hread)
    hlicensed] at hdecision
  obtain rfl := Except.ok.inj hdecision
  rfl

/-- The second one finds the header in the file. -/
theorem action_second (h : job.Race disk path other text)
    (hstep : job.Processed disk path middle reports none)
    (hnext : job.Processed middle other after [report] none) (hstamps : job.AcceptsStamps)
    (hcheck : job.check = false) : report.action = .unchanged := by
  obtain ⟨style, hclass⟩ := h.candidate'
  obtain ⟨location, content, hpath, hother, hcontent, -, -⟩ := h.meet
  obtain ⟨new, hnew, haccepts⟩ :=
    hstep.exists_accepts hstamps hcheck h.candidate hpath hcontent
  have hfind := (Disk.find_of_shape hstep.shape_eq other).trans hother
  obtain ⟨decision, hdecision, rfl⟩ := hnext.exists_decision
  rw [decide_of_accepts hclass hfind hnew haccepts] at hdecision
  obtain rfl := Except.ok.inj hdecision
  rfl

end Race

/-- A path that does not race with the one before it is decided about as if that had not been
    processed. -/
theorem Processed.decide_of_not_race (hstep : job.Processed disk path middle [report] none)
    (hstamps : job.AcceptsStamps) (hfile : disk.LeadsToFile other)
    (hrace : ∀ text, ¬ job.Race disk path other text) :
    job.decide middle other = job.decide disk other := by
  rcases (hstep.ahead hstamps).decide_cases hfile with
    hsame | ⟨style, text, location, hfind, hne, hstamp, -⟩
  · exact hsame
  · have hstamped := hstep.stamps_of_changed hne
    obtain ⟨hclass, -⟩ := misses_of_decide hfile hstamp
    obtain ⟨old, hold, text, hread, hlicensed⟩ := hstamped.misses
    refine absurd ?_ (hrace text)
    exact ⟨hstamped.candidate, ⟨style, hclass⟩, location, old, hstamped.find, hfind, hold, hread,
      hlicensed⟩

namespace Runs

/-- Two runs over the same files, in whatever order, end on disks that are alike. -/
theorem alike (one : job.Runs first files after reports none)
    (two : job.Runs second files' after' reports' none) (h : job.Alike first second)
    (hmem : ∀ path, path ∈ files' ↔ path ∈ files) (hstamps : job.AcceptsStamps) :
    job.Alike after after' where
  shape_eq := by rw [two.shape_eq, one.shape_eq, h.shape_eq]
  content location := by
    rcases h.content location with hsame | ⟨⟨old, hold, haccepts⟩, new, hnew, haccepts'⟩
    · have hchanged : after'.content? location ≠ second.content? location ↔
          after.content? location ≠ first.content? location := by
        rw [one.changed_iff_of_success hstamps, two.changed_iff_of_success hstamps, hsame]
        simp only [Disk.find_of_shape h.shape_eq, hmem]
      -- a file is changed by both runs or by neither, and by both it gets the header
      by_cases hkept : after.content? location = first.content? location
      · have hkept' := not_ne_iff.1 fun hne => hchanged.1 hne hkept
        exact .inl (by rw [hkept', hkept, hsame])
      · obtain ⟨⟨path, hpath, hcand, hfind⟩, ⟨old, hold, -⟩, hcheck⟩ := one.of_changed hkept
        have hfind' := (Disk.find_of_shape h.shape_eq path).trans hfind
        have hpath' : path ∈ files'.take reports'.length := by
          rw [two.length_of_success, List.take_length, hmem]
          exact List.mem_of_mem_take hpath
        exact .inr ⟨one.exists_accepts hstamps hcheck hpath hcand hfind hold,
          two.exists_accepts hstamps hcheck hpath' hcand hfind' (hsame.trans hold)⟩
    · exact .inr ⟨⟨old, one.content?_of_accepts hold haccepts, haccepts⟩,
        new, two.content?_of_accepts hnew haccepts', haccepts'⟩

/-- Two runs over one list report the same if they start on disks that are alike. -/
theorem reports_eq (one : job.Runs first files after reports none)
    (two : job.Runs second files after' reports' none) (h : job.Alike first second)
    (hfiles : ∀ path ∈ files, first.LeadsToFile path) (hstamps : job.AcceptsStamps) :
    reports' = reports := by
  induction files generalizing first second reports reports' with
  | nil =>
      cases one
      cases two
      rfl
  | cons path rest ih =>
      cases one with
      | next hstep onward =>
          cases two with
          | next hstep' onward' =>
              have hdecide := h.decide_eq (hfiles path List.mem_cons_self)
              obtain ⟨decision, hdecision, rfl⟩ := hstep.exists_decision
              obtain ⟨decision', hdecision', rfl⟩ := hstep'.exists_decision
              obtain rfl := Except.ok.inj (hdecision'.symm.trans (hdecide.trans hdecision))
              have hnext := alike (.next hstep .done) (.next hstep' .done) h (by simp) hstamps
              rw [ih onward onward' hnext (hstep.leadsToFile_rest hfiles)]

end Runs

end Job

end LicenseStamp

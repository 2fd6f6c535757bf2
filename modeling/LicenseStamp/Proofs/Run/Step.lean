import LicenseStamp.Proofs.Tree.ReadWrite
import LicenseStamp.Run.Process

/-! # One file of a run

All that processing one file can come to. The disk changes in one case only: a file that may
receive a header, and was read as a text without one, gets the stamped text.
-/

namespace LicenseStamp

namespace Job

/-- What processing the file at a path comes to: the disk after it, what is reported, and
    why the run stops there, if it does. -/
inductive Processed (job : Job) (disk : Disk) (path : Path) :
    Disk → List FileReport → Option Failure → Prop where
  /-- The file cannot be read. -/
  | unread {style : HeaderStyle} {cause : ReadError}
      (hclass : Eligibility.classify job.root path = .candidate style)
      (hread : disk.readText path = .error cause) :
      Processed job disk path disk [] (some (.read path cause))
  /-- The file cannot be written. -/
  | unwritten {style : HeaderStyle} {text : Text} {cause : DiskError}
      (hclass : Eligibility.classify job.root path = .candidate style)
      (hread : disk.readText path = .ok text) (hlicensed : job.licensed text = false)
      (hcheck : job.check = false)
      (hwrite : disk.write path (Utf8.encode (style.stamp text).content) = .error cause) :
      Processed job disk path disk [] (some (.write path cause))
  /-- The file may not receive a header. -/
  | skipped {reason : Text} (hclass : Eligibility.classify job.root path = .rejected reason) :
      Processed job disk path disk [Decision.report (path.relativeTo job.root) (.skip reason)] none
  /-- The file carries the header already. -/
  | kept {style : HeaderStyle} {text : Text}
      (hclass : Eligibility.classify job.root path = .candidate style)
      (hread : disk.readText path = .ok text) (hlicensed : job.licensed text = true) :
      Processed job disk path disk [Decision.report (path.relativeTo job.root) (.keep style)] none
  /-- The file would be stamped, but the run only checks. -/
  | checked {style : HeaderStyle} {text : Text}
      (hclass : Eligibility.classify job.root path = .candidate style)
      (hread : disk.readText path = .ok text) (hlicensed : job.licensed text = false)
      (hcheck : job.check = true) :
      Processed job disk path disk
        [Decision.report (path.relativeTo job.root) (.stamp style text (style.stamp text))] none
  /-- The path leads to a device, which forgets what is written to it. -/
  | forgotten {style : HeaderStyle} {text : Text} {location : Location} {full : Bool}
      (hclass : Eligibility.classify job.root path = .candidate style)
      (hfind : disk.find path = .ok location)
      (hnode : disk.node? location = some (.device full)) (hread : disk.readText path = .ok text)
      (hlicensed : job.licensed text = false) (hcheck : job.check = false) :
      Processed job disk path disk
        [Decision.report (path.relativeTo job.root) (.stamp style text (style.stamp text))] none
  /-- The file is stamped. -/
  | stamped {style : HeaderStyle} {text : Text} {location : Location} {content : Bytes}
      (hclass : Eligibility.classify job.root path = .candidate style)
      (hfind : disk.find path = .ok location) (hcontent : disk.content? location = some content)
      (hread : content.readText = .ok text) (hlicensed : job.licensed text = false)
      (hcheck : job.check = false) (hidle : disk.running ≠ some location) :
      Processed job disk path
        (disk.put location (.file (Utf8.encode (style.stamp text).content)))
        [Decision.report (path.relativeTo job.root) (.stamp style text (style.stamp text))] none

variable {job : Job} {disk : Disk} {path : Path}

theorem decide_of_rejected {reason : Text}
    (hclass : Eligibility.classify job.root path = .rejected reason) :
    job.decide disk path = .ok (.skip reason) := by
  simp only [decide, hclass]

theorem decide_of_unread {style : HeaderStyle} {cause : ReadError}
    (hclass : Eligibility.classify job.root path = .candidate style)
    (hread : disk.readText path = .error cause) : job.decide disk path = .error cause := by
  simp only [decide, hclass, hread]

theorem decide_of_licensed {style : HeaderStyle} {text : Text}
    (hclass : Eligibility.classify job.root path = .candidate style)
    (hread : disk.readText path = .ok text) (hlicensed : job.licensed text = true) :
    job.decide disk path = .ok (.keep style) := by
  simp only [decide, hclass, hread, hlicensed]
  rfl

theorem decide_of_unlicensed {style : HeaderStyle} {text : Text}
    (hclass : Eligibility.classify job.root path = .candidate style)
    (hread : disk.readText path = .ok text) (hlicensed : job.licensed text = false) :
    job.decide disk path = .ok (.stamp style text (style.stamp text)) := by
  simp only [decide, hclass, hread, hlicensed]
  rfl

theorem processFile_of_unchanged {decision : Decision}
    (hdecide : job.decide disk path = .ok decision)
    (hcarry : decision.carryOut disk path = .ok disk) :
    (job.processFile disk path).disk = disk ∧
      (job.processFile disk path).reports = [decision.report (path.relativeTo job.root)] ∧
      (job.processFile disk path).failure = none := by
  simp only [processFile, hdecide, hcarry, ite_self, and_self]

/-- A file that is to be stamped is stamped, unless it is the running program. -/
theorem processFile_of_stamp {style : HeaderStyle} {text : Text} {stamped : Stamped}
    {location : Location} {content : Bytes}
    (hdecide : job.decide disk path = .ok (.stamp style text stamped)) (hcheck : job.check = false)
    (hfind : disk.find path = .ok location) (hcontent : disk.content? location = some content) :
    let done := job.processFile disk path
    (disk.running = some location →
      done.disk = disk ∧ done.reports = [] ∧ done.failure = some (.write path .busy)) ∧
    (disk.running ≠ some location →
      done.disk = disk.put location (.file (Utf8.encode stamped.content)) ∧
        done.reports = [Decision.report (path.relativeTo job.root) (.stamp style text stamped)] ∧
        done.failure = none) := by
  simp only [processFile, hdecide, hcheck, Bool.false_eq_true, if_false, Decision.carryOut,
    Disk.write_of_content? hfind hcontent]
  constructor
  · intro hbusy
    simp only [hbusy, if_true, and_self]
  · intro hidle
    simp only [hidle, if_false, and_self]

/-- Nothing else can come of a file. -/
theorem processed_processFile (job : Job) (disk : Disk) (path : Path) :
    job.Processed disk path (job.processFile disk path).disk (job.processFile disk path).reports
      (job.processFile disk path).failure := by
  cases hclass : Eligibility.classify job.root path with
  | rejected reason =>
      simp only [processFile, decide_of_rejected hclass, Decision.carryOut, ite_self]
      exact .skipped hclass
  | candidate style =>
      cases hread : disk.readText path with
      | error cause =>
          simp only [processFile, decide_of_unread hclass hread]
          exact .unread hclass hread
      | ok text =>
          cases hlicensed : job.licensed text with
          | true =>
              simp only [processFile, decide_of_licensed hclass hread hlicensed, Decision.carryOut,
                ite_self]
              exact .kept hclass hread hlicensed
          | false =>
              simp only [processFile, decide_of_unlicensed hclass hread hlicensed, Decision.carryOut]
              cases hcheck : job.check with
              | true => exact .checked hclass hread hlicensed hcheck
              | false =>
                  simp only [Bool.false_eq_true, if_false]
                  cases hwrite : disk.write path (Utf8.encode (style.stamp text).content) with
                  | error cause => exact .unwritten hclass hread hlicensed hcheck hwrite
                  | ok after =>
                      obtain ⟨location, hfind, ⟨content, hcontent, htext⟩ | ⟨full, hnode⟩⟩ :=
                        Disk.readText_eq_ok hread
                      · rw [Disk.write_of_content? hfind hcontent] at hwrite
                        split at hwrite
                        · cases hwrite
                        next hidle =>
                          cases hwrite
                          exact .stamped hclass hfind hcontent htext hlicensed hcheck hidle
                      · obtain rfl := Disk.write_of_device hfind hnode hwrite
                        exact .forgotten hclass hfind hnode hread hlicensed hcheck

end Job

end LicenseStamp

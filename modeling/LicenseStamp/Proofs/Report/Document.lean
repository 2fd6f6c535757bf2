import LicenseStamp.Proofs.Decimal.Shortest
import LicenseStamp.Proofs.Json.Printer
import LicenseStamp.Proofs.Text.Utf8
import LicenseStamp.Report.Document

/-! # Reading report documents

A reader of a report document finds in it what was reported: the entries in the order of the reports
and the summary. The document is JSON whatever the paths and the reasons are.
-/

namespace LicenseStamp

/-- The style that a text names. -/
def HeaderStyle.ofName? (name : Text) : Option HeaderStyle :=
  [("html".toList, HeaderStyle.html), ("code".toList, .code)].lookup name

/-- The action that a text names. -/
def Action.ofName? (name : Text) : Option Action :=
  [("added".toList, Action.added), ("replaced".toList, .replaced),
    ("unchanged".toList, .unchanged), ("skipped".toList, .skipped)].lookup name

theorem HeaderStyle.ofName?_name (style : HeaderStyle) : ofName? style.name = some style := by
  cases style <;> rfl

theorem Action.ofName?_name (action : Action) : ofName? action.name = some action := by
  cases action <;> rfl

namespace Json

/-- A text value under a name. -/
def text? (name : Text) (value : Json) : Option Text := (value.member? name).bind string?

/-- A counter under a name. -/
def count? (name : Text) (value : Json) : Option Nat := (value.member? name).bind nat?

/-- A text value under a name that may be missing, but is not anything else. -/
def optionalText? (name : Text) (value : Json) : Option (Option Text) :=
  match value.member? name with
  | none => some none
  | some found => found.string?.map some

/-- A style under a name, or none where there is a null. -/
def style? (name : Text) (value : Json) : Option (Option HeaderStyle) :=
  match value.member? name with
  | some .null => some none
  | some found => (found.string?.bind HeaderStyle.ofName?).map some
  | none => none

/-- Whether there is a number under a name. -/
def hasNumber (name : Text) (value : Json) : Bool :=
  match value.member? name with
  | some (.number _) => true
  | _ => false

end Json

/-- What a report document says of one file. -/
structure FileEntry where
  /-- The path, decoded and with slashes only -/
  path : Text
  /-- The style, if there is one -/
  style : Option HeaderStyle
  /-- What was done -/
  action : Action
  /-- Why the file was skipped, if that is said -/
  reason : Option Text
  deriving DecidableEq

/-- What a report document says of the whole run. -/
structure SummaryEntry where
  /-- The paths of the changed files, decoded and with slashes only -/
  changed : List Text
  /-- How many files were seen -/
  seen : Nat
  /-- How many of them may receive a header -/
  candidates : Nat
  /-- How many had an obsolete header replaced -/
  replaced : Nat
  /-- How many carried the header already -/
  compliant : Nat
  /-- How many may not receive a header -/
  skipped : Nat
  /-- Whether the run only checked -/
  dryRun : Bool
  deriving DecidableEq

/-- What a report document says. -/
structure ReportEntries where
  /-- The whole run -/
  summary : SummaryEntry
  /-- The files, in order -/
  files : List FileEntry
  deriving DecidableEq

/-- A text with a slash for each backslash. -/
def Text.withSlashes (text : Text) : Text := text.map fun c => if c = '\\' then '/' else c

namespace FileEntry

/-- What is to be said of one file. -/
def ofReport (report : FileReport) : FileEntry where
  path := report.path.display.withSlashes
  style := report.style
  action := report.action
  reason := report.reason

/-- The entry that a value is. -/
def ofJson? (value : Json) : Option FileEntry := do
  let path ← value.text? "path".toList
  let style ← value.style? "style".toList
  let action ← (value.text? "action".toList).bind Action.ofName?
  let reason ← value.optionalText? "skipped_reason".toList
  return ⟨path, style, action, reason⟩

theorem ofJson?_toJson (report : FileReport) : ofJson? report.toJson = some (ofReport report) := by
  have hpath : report.toJson.text? "path".toList = some report.path.display.withSlashes := rfl
  have hstyle : report.toJson.style? "style".toList = some report.style := by
    have hmember : report.toJson.member? "style".toList =
        some ((report.style.map fun style => Json.string style.name).getD .null) := rfl
    rw [Json.style?, hmember]
    cases report.style with
    | none => rfl
    | some style => exact congrArg (Option.map some) (HeaderStyle.ofName?_name style)
  have haction : report.toJson.text? "action".toList = some report.action.name := rfl
  have hreason : report.toJson.optionalText? "skipped_reason".toList = some report.reason := by
    rcases report with ⟨path, style, action, none | reason⟩ <;> rfl
  rw [ofJson?, hpath, hstyle, haction, hreason]
  simp only [Option.bind_eq_bind, Option.bind_some, Action.ofName?_name]
  rfl

theorem wellFormed_toJson (report : FileReport) : report.toJson.WellFormed := by
  refine .object ?_ fun member hmember => ?_
  · cases report.reason <;> simp
  · simp only [List.cons_append, List.nil_append, List.mem_cons, Option.mem_toList,
      Option.map_eq_some_iff] at hmember
    rcases hmember with rfl | rfl | rfl | ⟨reason, -, rfl⟩
    · exact .string _
    · cases report.style with
      | none => exact .null
      | some style => exact .string _
    · exact .string _
    · exact .string _

end FileEntry

namespace SummaryEntry

/-- What is to be said of a run. -/
def ofSummary (summary : Summary) : SummaryEntry where
  changed := summary.changed.map fun path => path.display.withSlashes
  seen := summary.seen
  candidates := summary.candidates
  replaced := summary.replaced
  compliant := summary.compliant
  skipped := summary.skipped
  dryRun := summary.dryRun

/-- The summary that a value is. -/
def ofJson? (value : Json) : Option SummaryEntry := do
  let items ← (value.member? "changed".toList).bind Json.items?
  let changed ← items.mapM Json.string?
  let seen ← value.count? "files_seen".toList
  let candidates ← value.count? "candidates".toList
  let replaced ← value.count? "replaced".toList
  let compliant ← value.count? "already_compliant".toList
  let skipped ← value.count? "skipped".toList
  let dryRun ← (value.member? "dry_run".toList).bind Json.bool?
  if value.hasNumber "elapsed".toList then
    return ⟨changed, seen, candidates, replaced, compliant, skipped, dryRun⟩
  else none

theorem ofJson?_toJson (summary : Summary) (elapsed : Duration) :
    ofJson? (summary.toJson elapsed) = some (ofSummary summary) := by
  have hitems : ((summary.toJson elapsed).member? "changed".toList).bind Json.items? =
      some (summary.changed.map fun path => Json.string path.reported) := rfl
  have hchanged : (summary.changed.map fun path => Json.string path.reported).mapM Json.string? =
      some (ofSummary summary).changed :=
    Text.mapM_map_eq_some fun _ _ => rfl
  have hcount : ∀ name n, (summary.toJson elapsed).member? name = some (.ofNat n) →
      (summary.toJson elapsed).count? name = some n := by
    intro name n hname
    rw [Json.count?, hname]
    exact Text.number?_ofNat n
  have hflag : ((summary.toJson elapsed).member? "dry_run".toList).bind Json.bool? =
      some summary.dryRun := rfl
  have helapsed : (summary.toJson elapsed).hasNumber "elapsed".toList = true := rfl
  rw [ofJson?, hitems, hcount "files_seen".toList _ rfl, hcount "candidates".toList _ rfl,
    hcount "replaced".toList _ rfl, hcount "already_compliant".toList _ rfl,
    hcount "skipped".toList _ rfl, hflag, helapsed]
  simp only [Option.bind_eq_bind, Option.bind_some, hchanged]
  rfl

theorem wellFormed_toJson (summary : Summary) (elapsed : Duration) :
    (summary.toJson elapsed).WellFormed := by
  refine .object (by simp) fun member hmember => ?_
  have hcount : ∀ n, (Json.ofNat n).WellFormed := fun n => .number (Json.isNumber_ofNat n)
  simp only [List.mem_cons, List.not_mem_nil, or_false] at hmember
  rcases hmember with rfl | rfl | rfl | rfl | rfl | rfl | rfl | rfl
  · refine .array fun item hitem => ?_
    obtain ⟨path, -, rfl⟩ := List.mem_map.1 hitem
    exact .string _
  iterate 5 exact hcount _
  · exact .bool _
  · exact .number (Dyadic.isNumber_text _)

end SummaryEntry

namespace ReportEntries

/-- What is to be said of a run and its files. -/
def ofRun (reports : List FileReport) (summary : Summary) : ReportEntries :=
  ⟨.ofSummary summary, reports.map .ofReport⟩

/-- The entries that a value is. -/
def ofJson? (value : Json) : Option ReportEntries := do
  let summary ← (value.member? "summary".toList).bind SummaryEntry.ofJson?
  let items ← (value.member? "files".toList).bind Json.items?
  let files ← items.mapM FileEntry.ofJson?
  return ⟨summary, files⟩

/-- What the content of a report file says. -/
def read? (content : Bytes) : Option ReportEntries :=
  (Utf8.decode? content).bind fun text => (Json.read? text).bind ofJson?

/-- The value that a report document is printed from. -/
def toJson (reports : List FileReport) (summary : Summary) (elapsed : Duration) : Json :=
  .object
    [("summary".toList, summary.toJson elapsed),
      ("files".toList, .array (reports.map FileReport.toJson))]

theorem reportDocument_eq (reports : List FileReport) (summary : Summary) (elapsed : Duration) :
    reportDocument reports summary elapsed = (toJson reports summary elapsed).pretty :=
  rfl

theorem wellFormed_toJson (reports : List FileReport) (summary : Summary) (elapsed : Duration) :
    (toJson reports summary elapsed).WellFormed := by
  refine .object (by simp) fun member hmember => ?_
  simp only [List.mem_cons, List.not_mem_nil, or_false] at hmember
  rcases hmember with rfl | rfl
  · exact SummaryEntry.wellFormed_toJson summary elapsed
  · refine .array fun item hitem => ?_
    obtain ⟨report, -, rfl⟩ := List.mem_map.1 hitem
    exact FileEntry.wellFormed_toJson report

theorem ofJson?_toJson (reports : List FileReport) (summary : Summary) (elapsed : Duration) :
    ofJson? (toJson reports summary elapsed) = some (ofRun reports summary) := by
  have hsummary : ((toJson reports summary elapsed).member? "summary".toList).bind
      SummaryEntry.ofJson? = some (.ofSummary summary) := SummaryEntry.ofJson?_toJson summary elapsed
  have hfiles : ((toJson reports summary elapsed).member? "files".toList).bind Json.items? =
      some (reports.map FileReport.toJson) := rfl
  have hentries : (reports.map FileReport.toJson).mapM FileEntry.ofJson? =
      some (reports.map .ofReport) :=
    Text.mapM_map_eq_some fun report _ => FileEntry.ofJson?_toJson report
  rw [ofJson?, hsummary, hfiles]
  simp only [Option.bind_eq_bind, Option.bind_some, hentries]
  rfl

theorem read?_encode (reports : List FileReport) (summary : Summary) (elapsed : Duration) :
    read? (Utf8.encode (reportDocument reports summary elapsed)) = some (ofRun reports summary) := by
  rw [read?, Utf8.decode?_encode, Option.bind_some, reportDocument_eq,
    (wellFormed_toJson reports summary elapsed).read?_pretty, Option.bind_some, ofJson?_toJson]

/-- The document is JSON and says what was reported. It spells one value and no other; the numbers of
    that value are numbers and its objects have one member of a name. The entries that the value is, and
    that are read from the bytes of the document, are those of the reports, in order, and that of the
    summary. -/
theorem reportDocument_reads (reports : List FileReport) (summary : Summary) (elapsed : Duration) :
    ∃ document : Json, document.WellFormed ∧
      (∀ value : Json, value.SpellsElement (reportDocument reports summary elapsed) ↔
        value = document) ∧
      ofJson? document = some (ofRun reports summary) ∧
      read? (Utf8.encode (reportDocument reports summary elapsed)) = some (ofRun reports summary) := by
  have hwf := wellFormed_toJson reports summary elapsed
  have hspells := hwf.spellsElement_pretty
  refine ⟨_, hwf, fun value => ⟨fun h => h.value_unique hspells, ?_⟩,
    ofJson?_toJson reports summary elapsed, read?_encode reports summary elapsed⟩
  rintro rfl
  exact hspells

/-- Reports of four files. One path holds a backslash, another one a byte that spells no character,
    and the reason holds characters that are escaped. -/
def sampleReports : List FileReport :=
  [⟨.ofText "a\\b.md".toList, some .html, .added, none⟩,
    ⟨⟨[0x63, 0xFF]⟩, some .code, .replaced, none⟩,
    ⟨.ofText "d.js".toList, some .code, .unchanged, none⟩,
    ⟨.ofText "é".toList, none, .skipped, some "\"\\\n\x01é".toList⟩]

/-- The summary of the reports, of a run that only checked. -/
def sampleSummary : Summary :=
  ⟨[.ofText "a\\b.md".toList, ⟨[0x63, 0xFF]⟩], 4, 3, 1, 1, 1, true⟩

/-- The document of the reports, line by line. -/
def sampleDocument : Text :=
  ['\n'].intercalate <|
    ["\x7b",
      "  \"summary\": \x7b",
      "    \"changed\": [",
      "      \"a/b.md\",",
      "      \"c\uFFFD\"",
      "    ],",
      "    \"files_seen\": 4,",
      "    \"candidates\": 3,",
      "    \"replaced\": 1,",
      "    \"already_compliant\": 1,",
      "    \"skipped\": 1,",
      "    \"dry_run\": true,",
      "    \"elapsed\": 1.5",
      "  \x7d,",
      "  \"files\": [",
      "    \x7b",
      "      \"path\": \"a/b.md\",",
      "      \"style\": \"html\",",
      "      \"action\": \"added\"",
      "    \x7d,",
      "    \x7b",
      "      \"path\": \"c\uFFFD\",",
      "      \"style\": \"code\",",
      "      \"action\": \"replaced\"",
      "    \x7d,",
      "    \x7b",
      "      \"path\": \"d.js\",",
      "      \"style\": \"code\",",
      "      \"action\": \"unchanged\"",
      "    \x7d,",
      "    \x7b",
      "      \"path\": \"é\",",
      "      \"style\": null,",
      "      \"action\": \"skipped\",",
      "      \"skipped_reason\": \"\\\"\\\\\\n\\u0001é\"",
      "    \x7d",
      "  ]",
      "\x7d"].map String.toList

theorem reportDocument_reads_sample :
    reportDocument sampleReports sampleSummary ⟨1, 500000000⟩ = sampleDocument ∧
      read? (Utf8.encode sampleDocument) = some
        ⟨⟨["a/b.md".toList, "c\uFFFD".toList], 4, 3, 1, 1, 1, true⟩,
          [⟨"a/b.md".toList, some .html, .added, none⟩,
            ⟨"c\uFFFD".toList, some .code, .replaced, none⟩,
            ⟨"d.js".toList, some .code, .unchanged, none⟩,
            ⟨"é".toList, none, .skipped, some "\"\\\n\x01é".toList⟩]⟩ := by
  have hdocument : reportDocument sampleReports sampleSummary ⟨1, 500000000⟩ = sampleDocument := by
    decide +kernel
  obtain ⟨_, -, -, -, hread⟩ := reportDocument_reads sampleReports sampleSummary ⟨1, 500000000⟩
  rw [hdocument] at hread
  exact ⟨hdocument, hread.trans (by decide +kernel)⟩

end ReportEntries

end LicenseStamp

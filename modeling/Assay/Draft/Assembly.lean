import Assay.Draft.Basic
import Assay.Moment.Iso
import Assay.Schema.Reports

/-!
# Reports put together by hand

A document may describe the report on a run: the reports of its tools, each as a success, a failure or
a skipped run, with drafts for issues. `Assembly.read` puts the reports together; what a document says
of times, names and numbers is checked, what its drafts say is not.
-/

namespace Assay

open Schema

namespace Draft

/-- Every value in a field of drafts. -/
def keysOf (drafts : List Draft) (field : String) : Except Breach (List Datum) :=
  drafts.mapM fun i => (i.value field).asKey

/-- How many of the values are a name. -/
def countName (values : List Datum) (name : String) : Int := values.countP fun d => d.same (.text name)

/-- The number of drafts of every severity. -/
def severityCounts (drafts : List Draft) : Except Breach Counts := do
  let values ← keysOf drafts "severity"
  return (Vocabulary.members (α := Severity)).map fun s =>
    (Vocabulary.name s, countName values (Vocabulary.name s))

/-- The number of drafts of every category that has any. -/
def categoryCounts (drafts : List Draft) : Except Breach Counts := do
  let values ← keysOf drafts "category"
  return ((Vocabulary.members (α := Category)).map fun c =>
    (Vocabulary.name c, countName values (Vocabulary.name c))).filter fun (_, n) => n != 0

end Draft

/-- The report on a tool, with drafts for issues. -/
structure AssembledReport where
  report : ToolReport
  drafts : List Draft := []

/-- The report on a run, with the reports of its tools. -/
structure Assembly where
  run : RunReport
  parts : List AssembledReport

/-- The outcome of checked reading, with the faults as a breach. -/
def Schema.Checked.orBreach {α : Type} : Checked α → Except Breach α
  | .good a => .ok a
  | .bad faults => .error (.invalid (faultsText faults))

/-- Writes the report on a tool, with its drafts. -/
def AssembledReport.write (r : AssembledReport) : Datum :=
  written .camel (Draft.replaceEntry "issues" (.list (r.drafts.map Draft.write)) r.report.entries)

namespace Assembly

/-- When every run that is put together starts. -/
def startText : String := "2025-01-02T03:04:05+00:00"

/-- When a run ends that says nothing of it. -/
def finishText : String := "2025-01-02T03:04:06.5+00:00"

/-- The moment in a field, or the one named by a text if there is no such field. -/
def momentIn (d : Datum) (field fallback : String) : Except Breach Moment :=
  match d.get? field with
  | none => Moment.ofIso fallback
  | some v => v.asText.bind Moment.ofIso

/-- The text in a field that may be missing. -/
def textIn (d : Datum) (field fallback : String) : Except Breach String :=
  ((d.get? field).getD (.text fallback)).asText

/-- The parts of the value in a field; none if there is no such field. -/
def itemsIn (d : Datum) (field : String) : Except Breach (List Datum) :=
  ((d.get? field).getD (.list [])).parts

/-- The parts of the value in a field as a list. -/
def partsIn (d : Datum) (field : String) : Except Breach Datum := (itemsIn d field).map Datum.list

/-- A path, written out. -/
def pathIn (d : Datum) (field : String) : Except Breach String :=
  (textIn d field "/work/proj").map fun s => (Files.Path.ofString s).toString

/-- What the document of a tool's report says of the run of the tool. -/
structure Particulars where
  tool : String
  version : Option String
  language : String
  filesAnalyzed : Nat
  warnings : List String
  droppedRecords : Nat

/-- Reads the particulars of a tool's run; `warnings` stands for what the document says of them. -/
def Particulars.read (d warnings : Datum) : Checked Particulars :=
  let field := fun (name : String) (fallback : Datum) => (d.get? name).getD fallback
  Particulars.mk <$> (text (d.get "tool")).under (.key "tool") <*>
    (nullable text (d.get "version")).under (.key "version") <*>
    (text (field "language" (.text "go"))).under (.key "language") <*>
    (wholeFrom 0 (field "files_analyzed" (.int 0))).under (.key "files_analyzed") <*>
    (tupleOf text warnings).under (.key "warnings") <*>
    (wholeFrom 0 (field "dropped_records" (.int 0))).under (.key "dropped_records")

/-- The head of a report. -/
def Particulars.head (p : Particulars) (target : String) (startedAt finishedAt : Moment) : ReportHead :=
  { tool := p.tool, version := p.version, language := p.language, target, startedAt, finishedAt }

/-- The two moments are of one sort, with offsets or without, so that they can be subtracted. -/
def comparable (startedAt finishedAt : Moment) : Except Breach Unit :=
  if (startedAt.microsecondsTo? finishedAt).isSome then .ok () else .error .wrongKind

/-- A field that has to be there. -/
def needed (d : Datum) (field : String) : Except Breach Datum :=
  match d.get? field with
  | some v => .ok v
  | none => .error (.missingKey field)

/-- The report of a tool that ran. -/
def success (d : Datum) : Except Breach AssembledReport := do
  let drafts ← (← itemsIn d "issues").mapM fun x => (Draft.read x).orBreach
  let _ ← needed d "tool"
  let target ← pathIn d "target"
  let startedAt ← momentIn d "started_at" startText
  let finishedAt ← momentIn d "finished_at" finishText
  comparable startedAt finishedAt
  let bySeverity ← Draft.severityCounts drafts
  let byCategory ← Draft.categoryCounts drafts
  let p ← (Particulars.read d (← partsIn d "warnings")).orBreach
  let report := (p.head target startedAt finishedAt).success (drafts.map (·.issue)) p.filesAnalyzed p.warnings
    p.droppedRecords
  return ⟨{ report with issuesBySeverity := bySeverity, issuesByCategory := byCategory }, drafts⟩

/-- The report of a tool that failed. It ends at the time of the universal clock. -/
def failure (d : Datum) : Except Breach AssembledReport := do
  let _ ← needed d "tool"
  let target ← pathIn d "target"
  let startedAt ← momentIn d "started_at" startText
  let finishedAt ← Moment.ofIso finishText
  let kind : ProblemKind ← (Vocabulary.parse (← needed d "error_kind")).mapError fun u =>
    .badValue u.message
  comparable startedAt finishedAt
  let p ← (Particulars.read d (← partsIn d "warnings")).orBreach
  let report := (p.head target startedAt finishedAt).failed ⟨kind, ← textIn d "detail" ""⟩
    p.filesAnalyzed p.warnings p.droppedRecords
  return ⟨report, []⟩

/-- The report of a tool that had nothing to do. It ends at the time of the universal clock. -/
def skipped (d : Datum) : Except Breach AssembledReport := do
  let _ ← needed d "tool"
  let target ← pathIn d "target"
  let startedAt ← momentIn d "started_at" startText
  let finishedAt ← Moment.ofIso finishText
  comparable startedAt finishedAt
  let reason := (d.get? "reason").getD (.text "")
  let p ← (Particulars.read (d.without ["files_analyzed", "dropped_records"]) (.list [reason])).orBreach
  return ⟨(p.head target startedAt finishedAt).skipped (Text.join "" p.warnings), []⟩

/-- The report on a tool, by the kind that its document names. -/
def reportOf (d : Datum) : Except Breach AssembledReport :=
  if !d.isTable then .error .unsupported
  else match (d.get? "kind").getD (.text "ok") with
    | .text "error" => failure d
    | .text "skipped" => skipped d
    | _ => success d

/-- The names in a field, in order. What cannot be brought into an order is of the wrong kind. -/
def sortedIn (d : Datum) (field : String) : Except Breach Datum := do
  let ds ← itemsIn d field
  let names := ds.filterMap fun x => match x with
    | .text s => some s
    | _ => none
  if names.length == ds.length then return .list ((Files.sortNames names).map Datum.text)
  else if ds.length ≤ 1 || ds.all fun x => (Number.ofDatum? x).isSome then return .list ds
  else throw .wrongKind

/-- The wall-clock time in a field, at least zero. -/
def wallClockIn (d : Datum) (field : String) : Except Breach Datum := do
  let v := (d.get? field).getD (.int 0)
  let n ← Number.ofDatum v
  return if n.less (.whole 0) then .int 0 else v

/-- What the document of a run says of it beside the reports of tools. -/
structure RunParticulars where
  languages : List String
  wallClockMs : Nat
  notes : List String

/-- Reads what a document says of a run. -/
def read (d : Datum) : Except Breach Assembly := do
  let parts ← (← itemsIn d "reports").mapM reportOf
  let root ← pathIn d "project_root"
  let startedAt ← Moment.ofIso startText
  let finishedAt ← momentIn d "finished_at" finishText
  let languages ← sortedIn d "languages"
  let wallClock ← wallClockIn d "wall_clock_ms"
  let notes ← partsIn d "notes"
  let p ← (RunParticulars.mk <$> (tupleOf text languages).under (.key "detected_languages") <*>
    (wholeFrom 0 wallClock).under (.key "wall_clock_ms") <*>
    (tupleOf text notes).under (.key "notes")).orBreach
  let drafts := parts.flatMap (·.drafts)
  let bySeverity ← Draft.severityCounts drafts
  let byCategory ← Draft.categoryCounts drafts
  let run := RunReport.ofReports root p.languages (parts.map (·.report)) startedAt finishedAt
    p.wallClockMs p.notes
  return { run := { run with totals := { run.totals with bySeverity, byCategory } }, parts }

/-- Writes the report on a run, with the drafts of its tools. -/
def write (a : Assembly) : Datum :=
  written .camel (Draft.replaceEntry "reports" (.list (a.parts.map (·.write))) a.run.entries)

/-- The drafts of all reports, in order. -/
def drafts (a : Assembly) : List Draft := a.parts.flatMap (·.drafts)

/-- The worst severity of a run. A severity that was filled in has no rank. -/
def highestSeverity (a : Assembly) : Except Breach (Option Severity) :=
  if a.drafts.any fun i => i.isFilled "severity" then .error .unsupported else .ok a.run.highestSeverity

end Assembly

end Assay

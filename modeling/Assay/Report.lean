import Assay.Files.Listing
import Assay.Issue
import Assay.Moment
import Assay.Problem

/-!
# Reports

A *tool report* says what one tool found, or why it found nothing: an error, which never comes with
findings, or a reason for not running. A *run report* joins the reports of a run and counts across
them.
-/

namespace Assay

/-- How the run of a tool ended. -/
inductive ToolStatus where
  | ok
  | error
  | skipped
deriving Repr, DecidableEq, Inhabited

instance : Vocabulary ToolStatus where
  title := "ToolStatus"
  members := [.ok, .error, .skipped]
  name
    | .ok => "ok"
    | .error => "error"
    | .skipped => "skipped"

/-- Numbers by name, in order. -/
abbrev Counts := List (String × Int)

/-- The report on one tool. -/
structure ToolReport where
  tool : String
  version : Option String := none
  language : String
  timestamp : Moment
  target : String
  startedAt : Moment
  finishedAt : Moment
  durationMs : Nat
  filesAnalyzed : Nat := 0
  issuesBySeverity : Counts := []
  issuesByCategory : Counts := []
  issues : List Issue := []
  status : ToolStatus := .ok
  error : Option String := none
  errorKind : Option ProblemKind := none
  warnings : List String := []
  droppedRecords : Nat := 0
deriving Repr, DecidableEq, Inhabited

/-- The rule on errors that a report breaks: an error comes without findings and with a status of its
own, and the status `error` comes with an error. -/
def ToolReport.contradiction (r : ToolReport) : Option String :=
  match r.error with
  | some _ =>
    if !r.issues.isEmpty then some "a report carrying an error must not carry issues"
    else if r.status == .ok then some "a report carrying an error cannot have status 'ok'"
    else none
  | none => if r.status == .error then some "status 'error' requires an error message" else none

/-- The counts across the reports of a run. -/
structure Totals where
  totalIssues : Int := 0
  bySeverity : Counts := []
  byCategory : Counts := []
  byTool : Counts := []
  filesAnalyzed : Int := 0
  failedTools : List String := []
  skippedTools : List String := []
  droppedRecords : Int := 0
deriving Repr, DecidableEq, Inhabited

/-- The report on a run. -/
structure RunReport where
  projectRoot : String
  detectedLanguages : List String := []
  reports : List ToolReport := []
  totals : Totals := {}
  startedAt : Moment
  finishedAt : Moment
  wallClockMs : Nat
  notes : List String := []
deriving Repr, DecidableEq, Inhabited

/-- How many issues have a severity. -/
def countSeverity (issues : List Issue) (s : Severity) : Nat := issues.countP fun i => i.severity == s

/-- How many issues have a category. -/
def countCategory (issues : List Issue) (c : Category) : Nat := issues.countP fun i => i.category == c

/-- The number of issues of every severity. -/
def severityCounts (issues : List Issue) : Counts :=
  (Vocabulary.members (α := Severity)).map fun s => (Vocabulary.name s, (countSeverity issues s : Int))

/-- The number of issues of every category that has any. -/
def categoryCounts (issues : List Issue) : Counts :=
  ((Vocabulary.members (α := Category)).filter fun c => countCategory issues c != 0).map fun c =>
    (Vocabulary.name c, (countCategory issues c : Int))

/-- What every report on the run of a tool says. -/
structure ReportHead where
  tool : String
  version : Option String
  language : String
  target : String
  startedAt : Moment
  finishedAt : Moment
deriving Repr, DecidableEq

/-- The milliseconds from start to finish. -/
def ReportHead.durationMs (h : ReportHead) : Nat :=
  ((h.startedAt.microsecondsTo? h.finishedAt).map Moment.milliseconds).getD 0

/-- The report of a tool that ran. -/
def ReportHead.success (h : ReportHead) (issues : List Issue) (filesAnalyzed : Nat)
    (warnings : List String) (droppedRecords : Nat) : ToolReport :=
  { tool := h.tool, version := h.version, language := h.language, timestamp := h.finishedAt
    target := h.target, startedAt := h.startedAt, finishedAt := h.finishedAt
    durationMs := h.durationMs, filesAnalyzed, issues, warnings, droppedRecords
    issuesBySeverity := severityCounts issues
    issuesByCategory := categoryCounts issues
    status := .ok }

/-- The report of a tool that failed. -/
def ReportHead.failed (h : ReportHead) (p : Problem) (filesAnalyzed : Nat) (warnings : List String)
    (droppedRecords : Nat) : ToolReport :=
  { tool := h.tool, version := h.version, language := h.language, timestamp := h.finishedAt
    target := h.target, startedAt := h.startedAt, finishedAt := h.finishedAt
    durationMs := h.durationMs, filesAnalyzed, warnings, droppedRecords
    issuesBySeverity := severityCounts []
    status := .error
    error := some p.message
    errorKind := some p.kind }

/-- The report of a tool that had nothing to do. -/
def ReportHead.skipped (h : ReportHead) (reason : String) : ToolReport :=
  { tool := h.tool, version := h.version, language := h.language, timestamp := h.finishedAt
    target := h.target, startedAt := h.startedAt, finishedAt := h.finishedAt
    durationMs := h.durationMs
    issuesBySeverity := severityCounts []
    status := .skipped
    warnings := [reason] }

/-- Adds to the number of a name. -/
def Counts.add (name : String) (n : Int) : Counts → Counts
  | [] => [(name, n)]
  | (other, m) :: rest =>
    if other == name then (other, m + n) :: rest else (other, m) :: add name n rest

/-- The names of the tools whose reports have a status. -/
def toolsWith (status : ToolStatus) (reports : List ToolReport) : List String :=
  (reports.filter fun r => r.status == status).map (·.tool)

/-- A count taken of every report, added up. -/
def totalOf (count : ToolReport → Nat) (reports : List ToolReport) : Nat :=
  reports.foldl (fun n r => n + count r) 0

/-- The counts across a row of reports. -/
def Totals.ofReports (reports : List ToolReport) : Totals :=
  let issues := reports.flatMap (·.issues)
  { totalIssues := issues.length
    bySeverity := severityCounts issues
    byCategory := categoryCounts issues
    byTool := reports.foldl (fun counts r => Counts.add r.tool r.issues.length counts) []
    filesAnalyzed := totalOf (·.filesAnalyzed) reports
    failedTools := toolsWith .error reports
    skippedTools := toolsWith .skipped reports
    droppedRecords := totalOf (·.droppedRecords) reports }

/-- The report on a run from the reports of its tools. -/
def RunReport.ofReports (projectRoot : String) (languages : List String) (reports : List ToolReport)
    (startedAt finishedAt : Moment) (wallClockMs : Int) (notes : List String) : RunReport :=
  { projectRoot, reports, startedAt, finishedAt, notes
    detectedLanguages := Files.sortNames languages
    totals := Totals.ofReports reports
    wallClockMs := wallClockMs.toNat }

namespace RunReport

/-- The issues of all reports, in order. -/
def issues (r : RunReport) : List Issue := r.reports.flatMap (·.issues)

/-- The worse of two severities, of which the first may be missing. -/
def worst : Option Severity → Severity → Option Severity
  | none, s => some s
  | some t, s => some (t.raise s)

/-- The worst severity of a run. -/
def highestSeverity (r : RunReport) : Option Severity :=
  (r.issues.map (·.severity)).foldl worst none

/-- The number of issues of each severity that has any. -/
def histogram (r : RunReport) : List (Severity × Nat) :=
  ((Vocabulary.members (α := Severity)).map fun s => (s, countSeverity r.issues s)).filter
    fun (_, n) => n != 0

/-- The severity from which on a run counts as failed. -/
def failureThreshold : Severity := .high

/-- The exit code of a run: one if its worst severity is at least high. -/
def exitCode (r : RunReport) : Nat :=
  match r.highestSeverity with
  | some s => if s.atLeast failureThreshold then 1 else 0
  | none => 0

end RunReport

end Assay

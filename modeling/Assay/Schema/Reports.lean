import Assay.Report
import Assay.Schema.Issues

/-!
# Reports as documents

How reports are read from documents and written to them.
-/

namespace Assay

open Schema

/-- The moment, which has to lie in the years that are counted. -/
def Moment.inCountedYears (m : Moment) : Checked Moment :=
  if m.shown < Moment.first then .complain (.unusableMoment Moment.Cause.yearZero.text) else .good m

/-- Reads a moment. A number counts the time since the start of 1970. -/
def Moment.read : Datum → Checked Moment
  | .text s =>
    match Moment.ofText s with
    | .ok m => m.inCountedYears
    | .error cause => .complain (.unreadableMoment cause.text)
  | .int n =>
    let x := Decimal.floatOf (n < 0) n.natAbs 0
    if n.natAbs < Nat.pow 2 63 then counted (Moment.ofCount n 0)
    else if x.isInf then .complain .notMoment
    else counted (Moment.ofFloat x)
  | .float x => counted (Moment.ofFloat x)
  | _ => .complain .notMoment
where
  counted : Except Moment.Cause Moment → Checked Moment
    | .ok m => m.inCountedYears
    | .error cause => .complain (.unusableMoment cause.text)

/-- Writes a moment. -/
def Moment.write (m : Moment) : Datum := .text m.text

/-- Reads the report on a tool. -/
def ToolReport.read : Datum → Checked ToolReport :=
  aliasedRecord "ToolReport" fun r =>
    obeying ToolReport.contradiction <|
      ToolReport.mk <$> r.required "tool" text <*> r.optional "version" text <*>
        r.required "language" text <*> r.required "timestamp" Moment.read <*>
        r.required "target" text <*> r.required "started_at" Moment.read <*>
        r.required "finished_at" Moment.read <*> r.required "duration_ms" (wholeFrom 0) <*>
        r.given "files_analyzed" (wholeFrom 0) 0 <*>
        r.given "issues_by_severity" (tableOf whole) [] <*>
        r.given "issues_by_category" (tableOf whole) [] <*>
        r.given "issues" (tupleOf Issue.read) [] <*> r.given "status" member .ok <*>
        r.optional "error" text <*> r.optional "error_kind" member <*>
        r.given "warnings" (tupleOf text) [] <*> r.given "dropped_records" (wholeFrom 0) 0

/-- The fields of the report on a tool, with their values. -/
def ToolReport.entries (r : ToolReport) : List (String × Datum) :=
  [("tool", .text r.tool), ("version", writtenText r.version), ("language", .text r.language),
    ("timestamp", r.timestamp.write), ("target", .text r.target),
    ("started_at", r.startedAt.write), ("finished_at", r.finishedAt.write),
    ("duration_ms", writtenNat r.durationMs), ("files_analyzed", writtenNat r.filesAnalyzed),
    ("issues_by_severity", writtenCounts r.issuesBySeverity),
    ("issues_by_category", writtenCounts r.issuesByCategory),
    ("issues", .list (r.issues.map Issue.write)), ("status", writtenMember r.status),
    ("error", writtenText r.error), ("error_kind", (r.errorKind.map writtenMember).getD .null),
    ("warnings", writtenTexts r.warnings), ("dropped_records", writtenNat r.droppedRecords)]

/-- Writes the report on a tool. -/
def ToolReport.write (r : ToolReport) : Datum := written .camel r.entries

/-- Reads counts across reports. -/
def Totals.read : Datum → Checked Totals :=
  aliasedRecord "AggregateCounts" fun r =>
    Totals.mk <$> r.given "total_issues" whole 0 <*> r.given "by_severity" (tableOf whole) [] <*>
      r.given "by_category" (tableOf whole) [] <*> r.given "by_tool" (tableOf whole) [] <*>
      r.given "files_analyzed" whole 0 <*> r.given "failed_tools" (tupleOf text) [] <*>
      r.given "skipped_tools" (tupleOf text) [] <*> r.given "dropped_records" whole 0

/-- Writes counts across reports. -/
def Totals.write (t : Totals) : Datum :=
  written .camel
    [("total_issues", .int t.totalIssues), ("by_severity", writtenCounts t.bySeverity),
      ("by_category", writtenCounts t.byCategory), ("by_tool", writtenCounts t.byTool),
      ("files_analyzed", .int t.filesAnalyzed), ("failed_tools", writtenTexts t.failedTools),
      ("skipped_tools", writtenTexts t.skippedTools), ("dropped_records", .int t.droppedRecords)]

/-- Reads the report on a run. -/
def RunReport.read : Datum → Checked RunReport :=
  aliasedRecord "MultiToolReport" fun r =>
    RunReport.mk <$> r.required "project_root" text <*>
      r.given "detected_languages" (tupleOf text) [] <*>
      r.given "reports" (tupleOf ToolReport.read) [] <*> r.given "aggregate" Totals.read {} <*>
      r.required "started_at" Moment.read <*> r.required "finished_at" Moment.read <*>
      r.required "wall_clock_ms" (wholeFrom 0) <*> r.given "notes" (tupleOf text) []

/-- The fields of the report on a run, with their values. -/
def RunReport.entries (r : RunReport) : List (String × Datum) :=
  [("project_root", .text r.projectRoot), ("detected_languages", writtenTexts r.detectedLanguages),
    ("reports", .list (r.reports.map ToolReport.write)), ("aggregate", r.totals.write),
    ("started_at", r.startedAt.write), ("finished_at", r.finishedAt.write),
    ("wall_clock_ms", writtenNat r.wallClockMs), ("notes", writtenTexts r.notes)]

/-- Writes the report on a run. -/
def RunReport.write (r : RunReport) : Datum := written .camel r.entries

end Assay

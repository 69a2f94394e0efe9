import Assay.Datum.Display
import Assay.Issue
import Assay.Schema.Record

/-!
# Findings as documents

How raw findings, issues and their parts are read from documents and written to them. A raw finding
has its fields in small words only; everything else has both spellings.
-/

namespace Assay

open Schema

/-- Reads a whole number that is not below one. -/
def positive (d : Datum) : Checked Int := (wholeFrom 1 d).map Int.ofNat

/-- Reads a replacement. -/
def FixSuggestion.read : Datum → Checked FixSuggestion :=
  aliasedRecord "FixSuggestion" fun r =>
    FixSuggestion.mk <$> r.required "replacement" text <*> r.required "start_line" positive <*>
      r.given "start_column" positive 1 <*> r.required "end_line" positive <*>
      r.given "end_column" positive 1 <*> r.optional "description" text

/-- Writes a replacement. -/
def FixSuggestion.write (spelling : Spelling) (f : FixSuggestion) : Datum :=
  written spelling
    [("replacement", .text f.replacement), ("start_line", .int f.startLine),
      ("start_column", .int f.startColumn), ("end_line", .int f.endLine),
      ("end_column", .int f.endColumn), ("description", writtenText f.description)]

/-- Reads references. -/
def References.read : Datum → Checked References :=
  aliasedRecord "ExternalRefs" fun r =>
    References.mk <$> r.optional "cwe" text <*> r.optional "owasp" text <*>
      r.optional "advisory_url" text

/-- Writes references. -/
def References.write (spelling : Spelling) (r : References) : Datum :=
  written spelling
    [("cwe", writtenText r.cwe), ("owasp", writtenText r.owasp),
      ("advisory_url", writtenText r.advisoryUrl)]

/-- Reads a search radius. -/
def SearchRadius.read : Datum → Checked SearchRadius :=
  aliasedRecord "SearchRadius" fun r =>
    SearchRadius.mk <$> r.given "lines" whole 5 <*> r.given "columns" whole 10

/-- Writes a search radius. -/
def SearchRadius.write (r : SearchRadius) : Datum :=
  written .camel [("lines", .int r.lines), ("columns", .int r.columns)]

/-- Reads what a correlator is told. -/
def CorrelationHints.read : Datum → Checked CorrelationHints :=
  aliasedRecord "CorrelationHints" fun r =>
    CorrelationHints.mk <$> r.given "search_radius" SearchRadius.read {} <*>
      r.given "similarity_factors" (tupleOf text) (({} : CorrelationHints).similarityFactors) <*>
      r.given "cross_tool_patterns" (tupleOf text) []

/-- Writes what a correlator is told. -/
def CorrelationHints.write (h : CorrelationHints) : Datum :=
  written .camel
    [("search_radius", h.searchRadius.write),
      ("similarity_factors", writtenTexts h.similarityFactors),
      ("cross_tool_patterns", writtenTexts h.crossToolPatterns)]

namespace RawIssue

/-- Reads the file of a raw finding, which may be anything: its text counts. -/
def readFile : Datum → Checked (Option String)
  | .null => .good none
  | d => .good (cleanFile d.display)

/-- Reads a raw finding. -/
def read : Datum → Checked RawIssue :=
  plainRecord "RawIssue" fun r =>
    RawIssue.mk <$> r.given "file" readFile none <*> r.optional "line" whole <*>
      r.optional "column" whole <*> r.optional "end_line" whole <*>
      r.optional "end_column" whole <*> r.given "severity" member .medium <*>
      r.given "severity_known" truth true <*> r.optional "category" text <*>
      r.optional "rule" text <*> r.required "title" text <*> r.given "description" text "" <*>
      r.optional "confidence" member <*> r.given "tags" (listOf text) [] <*>
      r.optional "fix" FixSuggestion.read <*> r.optional "refs" References.read <*>
      r.given "pattern_hints" (listOf text) [] <*> r.optional "ecosystem" text

/-- Writes a raw finding. -/
def write (i : RawIssue) : Datum :=
  written .plain
    [("file", writtenText i.file), ("line", writtenWhole i.line), ("column", writtenWhole i.column),
      ("end_line", writtenWhole i.endLine), ("end_column", writtenWhole i.endColumn),
      ("severity", writtenMember i.severity), ("severity_known", .bool i.severityKnown),
      ("category", writtenText i.category), ("rule", writtenText i.rule), ("title", .text i.title),
      ("description", .text i.description),
      ("confidence", (i.confidence.map writtenMember).getD .null), ("tags", writtenTexts i.tags),
      ("fix", (i.fix.map fun f => f.write .plain).getD .null),
      ("refs", (i.refs.map fun r => r.write .plain).getD .null),
      ("pattern_hints", writtenTexts i.patternHints), ("ecosystem", writtenText i.ecosystem)]

/-- The finding with one field set to what a document says. -/
def set (i : RawIssue) (field : String) (d : Datum) : Checked RawIssue :=
  let outcome : Checked RawIssue := match field with
    | "file" => (readFile d).map fun x => { i with file := x }
    | "line" => (nullable whole d).map fun x => { i with line := x }
    | "column" => (nullable whole d).map fun x => { i with column := x }
    | "end_line" => (nullable whole d).map fun x => { i with endLine := x }
    | "end_column" => (nullable whole d).map fun x => { i with endColumn := x }
    | "severity" => (member d).map fun x => { i with severity := x }
    | "severity_known" => (truth d).map fun x => { i with severityKnown := x }
    | "category" => (nullable text d).map fun x => { i with category := x }
    | "rule" => (nullable text d).map fun x => { i with rule := x }
    | "title" => (text d).map fun x => { i with title := x }
    | "description" => (text d).map fun x => { i with description := x }
    | "confidence" => (nullable member d).map fun x => { i with confidence := x }
    | "tags" => (listOf text d).map fun x => { i with tags := x }
    | "fix" => (nullable FixSuggestion.read d).map fun x => { i with fix := x }
    | "refs" => (nullable References.read d).map fun x => { i with refs := x }
    | "pattern_hints" => (listOf text d).map fun x => { i with patternHints := x }
    | "ecosystem" => (nullable text d).map fun x => { i with ecosystem := x }
    | other => .complain (.noField other)
  outcome.under (.key field)

end RawIssue

namespace Issue

/-- Reads the path of an issue. -/
def readPath (d : Datum) : Checked String := obeying pathComplaint (text d)

/-- What is wrong with the span of an issue. -/
def spanComplaint (i : Issue) : Option String :=
  if i.endLine < i.startLine then some "end_line must not precede start_line" else none

/-- Reads an issue. -/
def read : Datum → Checked Issue :=
  aliasedRecord "UnifiedIssue" fun r =>
    obeying spanComplaint <|
      Issue.mk <$> r.required "id" text <*> r.required "tool_name" text <*>
        r.optional "tool_version" text <*> r.required "canonical_path" readPath <*>
        r.required "start_line" positive <*> r.required "start_column" positive <*>
        r.required "end_line" positive <*> r.required "end_column" positive <*>
        r.required "severity" member <*> r.required "category" member <*>
        r.required "subcategory" text <*> r.required "title" text <*>
        r.given "description" text "" <*> r.required "confidence" member <*>
        r.given "tags" (tupleOf text) [] <*> r.optional "fix_suggestion" FixSuggestion.read <*>
        r.optional "external_refs" References.read <*> r.given "correlation_key" text "" <*>
        r.given "cross_tool_patterns" (tupleOf text) [] <*> r.given "tool_category" text "" <*>
        r.given "ecosystem" text "" <*> r.given "correlation_hints" CorrelationHints.read {}

/-- The issue with one field set to what a document says. Only the kind of the value is checked. -/
def set (i : Issue) (field : String) (d : Datum) : Checked Issue :=
  let outcome : Checked Issue := match field with
    | "id" => (text d).map fun x => { i with id := x }
    | "tool_name" => (text d).map fun x => { i with toolName := x }
    | "tool_version" => (nullable text d).map fun x => { i with toolVersion := x }
    | "canonical_path" => (text d).map fun x => { i with canonicalPath := x }
    | "start_line" => (whole d).map fun x => { i with startLine := x }
    | "start_column" => (whole d).map fun x => { i with startColumn := x }
    | "end_line" => (whole d).map fun x => { i with endLine := x }
    | "end_column" => (whole d).map fun x => { i with endColumn := x }
    | "severity" => (member d).map fun x => { i with severity := x }
    | "category" => (member d).map fun x => { i with category := x }
    | "subcategory" => (text d).map fun x => { i with subcategory := x }
    | "title" => (text d).map fun x => { i with title := x }
    | "description" => (text d).map fun x => { i with description := x }
    | "confidence" => (member d).map fun x => { i with confidence := x }
    | "tags" => (tupleOf text d).map fun x => { i with tags := x }
    | "fix_suggestion" =>
      (nullable FixSuggestion.read d).map fun x => { i with fixSuggestion := x }
    | "external_refs" => (nullable References.read d).map fun x => { i with externalRefs := x }
    | "correlation_key" => (text d).map fun x => { i with correlationKey := x }
    | "cross_tool_patterns" => (tupleOf text d).map fun x => { i with crossToolPatterns := x }
    | "tool_category" => (text d).map fun x => { i with toolCategory := x }
    | "ecosystem" => (text d).map fun x => { i with ecosystem := x }
    | "correlation_hints" => (CorrelationHints.read d).map fun x => { i with correlationHints := x }
    | other => .complain (.noField other)
  outcome.under (.key field)

/-- The fields of an issue, with their values. -/
def entries (i : Issue) : List (String × Datum) :=
  [("id", .text i.id), ("tool_name", .text i.toolName), ("tool_version", writtenText i.toolVersion),
    ("canonical_path", .text i.canonicalPath), ("start_line", .int i.startLine),
    ("start_column", .int i.startColumn), ("end_line", .int i.endLine),
    ("end_column", .int i.endColumn), ("severity", writtenMember i.severity),
    ("category", writtenMember i.category), ("subcategory", .text i.subcategory),
    ("title", .text i.title), ("description", .text i.description),
    ("confidence", writtenMember i.confidence), ("tags", writtenTexts i.tags),
    ("fix_suggestion", (i.fixSuggestion.map fun f => f.write .camel).getD .null),
    ("external_refs", (i.externalRefs.map fun r => r.write .camel).getD .null),
    ("correlation_key", .text i.correlationKey),
    ("cross_tool_patterns", writtenTexts i.crossToolPatterns),
    ("tool_category", .text i.toolCategory), ("ecosystem", .text i.ecosystem),
    ("correlation_hints", i.correlationHints.write)]

/-- Writes an issue. -/
def write (i : Issue) : Datum := written .camel i.entries

end Issue

end Assay

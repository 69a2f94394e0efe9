import Assay.Analyzer.Basic
import Assay.Sandbox.Policy
import Assay.Schema.Issues
import Assay.Schema.Reports
import Assay.Schema.Settings

/-!
# Models by name

Every model that a document can be checked against, by the name that complaints call it by. A document
that fits is written out again, with everything that was left open filled in.

What is known of a tool before it runs, and what a probe found out, are documents, too.
-/

namespace Assay.Schema

/-- A reader whose value is written out again. -/
def echoed {α : Type} (read : Datum → Checked α) (write : α → Datum) (d : Datum) : Checked Datum :=
  write <$> read d

/-- The models by name; `parallelism` is what options leave open. -/
def models (parallelism : Nat) : List (String × (Datum → Checked Datum)) :=
  [("FixSuggestion", echoed FixSuggestion.read (FixSuggestion.write .camel)),
    ("ExternalRefs", echoed References.read (References.write .camel)),
    ("SearchRadius", echoed SearchRadius.read SearchRadius.write),
    ("CorrelationHints", echoed CorrelationHints.read CorrelationHints.write),
    ("RawIssue", echoed RawIssue.read RawIssue.write),
    ("UnifiedIssue", echoed Issue.read Issue.write),
    ("ToolReport", echoed ToolReport.read ToolReport.write),
    ("AggregateCounts", echoed Totals.read Totals.write),
    ("MultiToolReport", echoed RunReport.read RunReport.write),
    ("LanguageOptions", echoed (LanguageOptions.read parallelism) LanguageOptions.write),
    ("ResourceLimits", echoed ResourceLimits.read ResourceLimits.write),
    ("AnalysisOptions", echoed (AnalysisOptions.read parallelism) AnalysisOptions.write)]

end Assay.Schema

/-! ## Tools as documents -/

namespace Assay

open Schema

/-- The name of a kind of option. -/
def OptionKind.word : OptionKind → String
  | flag => "bool"
  | whole => "int"
  | text => "str"
  | list => "list"

/-- Writes how a tool is installed. -/
def InstallHint.write (h : InstallHint) : Datum :=
  written .plain
    [("steps", writtenTexts h.steps), ("requirements", writtenTexts h.requirements),
      ("notes", .text h.notes)]

namespace Sandbox

/-- Writes variables. -/
def Environment.write (e : Environment) : Datum := .table (e.map fun (n, v) => (n, .text v))

/-- Reads variables. -/
def Environment.read (d : Datum) : Checked Environment := tableOf Schema.text d

/-- Reads a policy. -/
def Policy.read : Datum → Checked Policy :=
  plainRecord "SandboxPolicy" fun r =>
    Policy.mk <$> r.required "command" Schema.text <*>
      r.given "argv_prefix" (listOf Schema.text) [] <*>
      r.given "allowed_flags" (listOf Schema.text) [] <*>
      r.given "env_passthrough" (listOf Schema.text) [] <*>
      r.given "env_overrides" Environment.read []

/-- Writes a policy. -/
def Policy.write (p : Policy) : Datum :=
  written .plain
    [("command", .text p.command), ("argv_prefix", writtenTexts p.fixedArguments),
      ("allowed_flags", writtenTexts (Files.sortNames p.allowedArguments)),
      ("env_passthrough", writtenTexts p.inherited),
      ("env_overrides", Environment.write p.overrides)]

end Sandbox

/-- Writes what is known of a tool, with the environment it gets from a parent. -/
def Analyzer.write (a : Analyzer) (parent : Sandbox.Environment) : Datum :=
  written .plain
    [("capabilities", written .plain
        [("supported_languages", writtenTexts (a.languages.map Language.name)),
          ("supported_formats", writtenTexts a.formats), ("requires_build", .bool a.requiresBuild),
          ("supports_incremental", .bool a.supportsIncremental)]),
      ("install", a.install.write),
      ("extensions", writtenTexts (Files.sortNames a.extensions)),
      ("markers", writtenTexts (Files.sortNames a.markers)), ("tool_category", .text a.category),
      ("policy", a.policy.write),
      ("options", .table (a.optionKinds.map fun (n, k) => (n, writtenTexts [k.word]))),
      ("version_argv", writtenTexts a.versionArguments),
      ("minimum_version", writtenText a.minimumVersion),
      ("default_confidence", writtenMember a.defaultConfidence),
      ("search_radius", a.searchRadius.write),
      ("batch_size", writtenWhole (a.batchSize.map Int.ofNat)),
      ("uses_file_list", .bool a.takesFiles), ("search_parents", .bool a.searchesParents),
      ("environment", (a.policy.environment parent).write)]

/-- Writes what a probe found out. -/
def Availability.write (a : Availability) : Datum :=
  written .plain
    [("available", .bool a.available), ("version", writtenText a.version),
      ("error", writtenText a.error),
      ("error_kind", (a.errorKind.map writtenMember).getD .null)]

end Assay

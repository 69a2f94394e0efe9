import Assay.Readers.Code
import Assay.Readers.Harvest
import Assay.Labels
import Assay.Text.Classes

/-!
# Findings of clippy and the compiler

Each line of the output is a record; those with the reason `compiler-message` carry a diagnostic. Only
warnings and errors with a code and a place in a file are findings. A lint is classified by the table
of known lints, then by the group that a note of the diagnostic names, then by words in its name; an
error that none of these places is a matter of correctness.
-/

namespace Assay.Readers

namespace Clippy

/-- The categories of lints that are reported often. -/
def lintCategories : List (String × Category) :=
  let of (category : Category) (lints : List String) := lints.map fun lint => (lint, category)
  of .correctness ["absurd_extreme_comparisons", "approx_constant", "eq_op", "erasing_op",
    "if_let_mutex", "infinite_iter", "iter_next_loop", "let_underscore_lock",
    "mem_replace_with_uninit", "never_loop", "nonsensical_open_options", "not_unsafe_ptr_arg_deref",
    "out_of_bounds_indexing", "panicking_unwrap", "read_zero_byte_vec", "self_assignment",
    "uninit_assumed_init", "uninit_vec", "unit_cmp", "unused_io_amount",
    "while_immutable_condition"] ++
  of .performance ["box_collection", "expect_fun_call", "extend_with_drain", "iter_nth",
    "large_enum_variant", "manual_memcpy", "needless_collect", "or_fun_call", "redundant_clone",
    "single_char_pattern", "slow_vector_initialization", "useless_vec", "vec_init_then_push"] ++
  of .complexity ["bool_comparison", "cognitive_complexity", "needless_bool", "nonminimal_bool",
    "too_many_arguments", "type_complexity", "unnecessary_cast", "useless_conversion"] ++
  of .suspicious ["almost_swapped", "empty_loop", "float_equality_without_abs",
    "misrefactored_assign_op", "suspicious_arithmetic_impl", "suspicious_else_formatting"] ++
  of .style ["collapsible_if", "len_zero", "let_and_return", "needless_return",
    "new_without_default", "question_mark", "redundant_field_names", "single_match",
    "wrong_self_convention"]

/-- Words in the name of a lint that give away its category, the telling ones first. -/
def keywordCategories : List (List String × Category) :=
  [(["correctness", "logic", "panic", "unreachable", "wrong"], .correctness),
    (["performance", "slow", "allocation", "clone"], .performance),
    (["style", "naming", "format", "convention"], .style),
    (["complexity", "cognitive", "cyclomatic", "too_many"], .complexity),
    (["suspicious", "unusual", "weird", "redundant"], .suspicious),
    (["deprecated"], .deprecated)]

/-- The groups of lints and their categories. -/
def groupCategories : List (String × Category) :=
  [("correctness", .correctness), ("suspicious", .suspicious), ("style", .style),
    ("complexity", .complexity), ("perf", .performance), ("pedantic", .style), ("nursery", .style),
    ("cargo", .other), ("restriction", .style)]

/-- The lints that warn of code that may panic. -/
def panicLints : List String :=
  ["unwrap_used", "expect_used", "panic", "indexing_slicing", "todo", "unimplemented", "unreachable",
    "panicking_unwrap"]

/-- What a lint's name may follow in a note: the opening of an attribute, or a flag. -/
def noteOpenings : List String :=
  ["#[warn(", "#[deny(", "#[forbid(", "-W ", "-W", "-D ", "-D", "-F ", "-F"]

/-- A name ends before this text. -/
def endsName : List Char → Bool
  | [] => true
  | c :: _ => !(Text.isWord c || c == '-')

/-- The group that a note names at its very start. -/
def groupAt? (cs : List Char) : Option String :=
  noteOpenings.findSome? fun opening => do
    let rest ← Text.dropStart? opening.toList cs
    let name ← Text.dropStart? "clippy::".toList rest
    (groupCategories.map (·.1)).find? fun group =>
      (Text.dropStart? group.toList name).any endsName

/-- The first group that a note names. -/
def groupIn? : List Char → Option String
  | [] => none
  | c :: cs => (groupAt? (c :: cs)).or (groupIn? cs)

/-- The group that the notes of a diagnostic name. -/
def groupOf? (message : Datum) : Option String :=
  ((message.get "children").tables.filterMap fun note => text (note.get "message")).findSome?
    fun note => groupIn? note.toList

/-- The category of a lint reported at a level, by its name and the group that a note named. -/
def category (lint level : String) (group : Option String) : Category :=
  match lintCategories.lookup lint with
  | some known => known
  | none =>
    match group.bind fun name => groupCategories.lookup name with
    | some known => known
    | none =>
      match keywordCategories.find? fun (words, _) => words.any fun word => Text.contains word lint with
      | some (_, found) => found
      | none => if level == "error" then .correctness else .style

/-- The severity of a lint of a category at a level. -/
def severity (category : Category) (level : String) : Severity :=
  match category with
  | .correctness => .high
  | .performance => if level == "error" then .high else .medium
  | .complexity => .medium
  | _ => if level == "error" then .medium else .low

/-- The category and the severity of a finding of the compiler itself. -/
def compilerVerdict (code level : String) : Category × Severity :=
  if code == "dead_code" then (.deadCode, .low)
  else if Text.hasStart "unused" code then (.unused, .low)
  else if Text.hasStart "deprecated" code then (.deprecated, .low)
  else if Text.hasStart "E" code || level == "error" then (.correctness, .high)
  else (.suspicious, .low)

/-- The span marked as the primary one, else the first. -/
def primarySpan? (message : Datum) : Option Datum :=
  let spans := (message.get "spans").tables
  (spans.find? fun span => (span.get "is_primary").isTruthy).or spans.head?

/-- The spans in which a replacement may be proposed: those of the diagnostic, then those of its notes. -/
def suggestionSpans (message : Datum) : List Datum :=
  (message.get "spans").tables ++
    (message.get "children").tables.flatMap fun note => (note.get "spans").tables

/-- A position that is at least one and one where none is given. -/
def position (n : Option Int) : Int := max (n.filter (· != 0) |>.getD 1) 1

/-- The first replacement proposed in a row of spans. -/
def fixIn : List Datum → Field (Option FixSuggestion)
  | [] => .ok none
  | span :: rest => do
    match span.get "suggested_replacement", ← whole (span.get "line_start") with
    | .text replacement, some start =>
      let startColumn ← whole (span.get "column_start")
      let endLine ← whole (span.get "line_end")
      let endColumn ← whole (span.get "column_end")
      return some {
        replacement
        startLine := max start 1
        startColumn := position startColumn
        endLine := max (max ((endLine.filter (· != 0)).getD start) start) 1
        endColumn := position endColumn
        description := text (span.get "suggestion_applicability") }
    | _, _ => fixIn rest

/-- What a code says about a finding. -/
structure Verdict where
  rule : String
  category : Category
  severity : Severity
  tags : List String
  hints : List String := []
  references : Option References := none

/-- The page that describes a lint. -/
def lintPage (lint : String) : String :=
  "https://rust-lang.github.io/rust-clippy/master/index.html#" ++ lint

/-- The verdict on a code reported at a level. -/
def verdict (code level : String) (group : Option String) : Verdict :=
  match clippyLint? code with
  | some lint =>
    let category := category lint level group
    { rule := code
      category
      severity := severity category level
      tags := ["rust", "clippy", Vocabulary.name category]
      hints := if panicLints.contains lint then ["potential_panic"] else []
      references := some { advisoryUrl := some (lintPage lint) } }
  | none =>
    if isCompilerCode code then
      let (category, severity) := compilerVerdict code level
      { rule := "rustc::" ++ code, category, severity,
        tags := ["rust", "rustc", Vocabulary.name category] }
    else
      { rule := unknownRule, category := .other, severity := .medium,
        tags := ["rust", unknownLabelTag] }

/-- The finding of a diagnostic with a code, a level and a primary span in a file. -/
def finding (root : Files.Path) (message span : Datum) (code level file : String) : Field RawIssue := do
  let v := verdict code level (groupOf? message)
  let title := (text (message.get "message")).getD code
  let line ← whole (span.get "line_start")
  let column ← whole (span.get "column_start")
  let endLine ← whole (span.get "line_end")
  let endColumn ← whole (span.get "column_end")
  let fix ← fixIn (suggestionSpans message)
  return {
    file := fileAt root file
    line, column, endLine, endColumn
    severity := v.severity
    severityKnown := v.rule != unknownRule
    category := some (Vocabulary.name v.category)
    rule := some v.rule
    title
    description := ((text (message.get "rendered")).map Text.stripEnd).getD title
    confidence := some (if v.category == .correctness then .high else .medium)
    tags := v.tags
    fix
    refs := v.references
    patternHints := v.hints }

/-- The findings of one record. -/
def record (root : Files.Path) (d : Datum) : Field (List RawIssue) := do
  match d.get "reason" with
  | .text "compiler-message" =>
    let message := d.get "message"
    if !message.isTable then throw (.badValue "compiler-message without a message body")
    let level := Text.lower ((message.get? "level").getD (.text "")).display
    if level != "warning" && level != "error" then return []
    match text (message.dig ["code", "code"]), primarySpan? message with
    | some code, some span =>
      match text (span.get "file_name") with
      | none => throw (.badValue "clippy span without file_name")
      | some file => return [← finding root message span code level file]
    | _, _ => return []
  | _ => return []

end Clippy

/-- The findings of clippy in a list of records. -/
def clippy (root : Files.Path) (records : Datum) : Except Breach Harvest :=
  harvest (Clippy.record root) records.tables

end Assay.Readers

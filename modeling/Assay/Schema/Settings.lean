import Assay.Datum.Display
import Assay.Datum.Operand
import Assay.Options
import Assay.Problem
import Assay.Schema.Record
import Assay.Text.Quoted

/-!
# Options as documents

How options are read from configurations and written. A key that stands for no option is a fault.
-/

namespace Assay

open Schema

/-- What is wrong with a list of rules. -/
def rulesComplaint (rules : List String) : Option String :=
  (rules.find? fun rule => !isRuleName rule).map fun rule =>
    "invalid rule identifier " ++ Text.quoted rule

/-- What is wrong with a list of tools. -/
def toolsComplaint (tools : List String) : Option String :=
  (tools.find? fun tool => !isToolName tool).map fun tool => "invalid tool name " ++ Text.quoted tool

/-- Reads a list of rules. -/
def readRules (d : Datum) : Checked (List String) := obeying rulesComplaint (tupleOf text d)

/-- Reads a list of tools. -/
def readTools (d : Datum) : Checked (List String) := obeying toolsComplaint (tupleOf text d)

/-- The largest number of files that a tool may get at once. -/
def maxBatchSize : Nat := 500

namespace LanguageOptions

/-- The names of the options of a language. -/
def fields : List String :=
  ["severity_threshold", "include_rules", "exclude_rules", "batch_size", "timeout_ms", "parallelism",
    "tool_selection", "include_tests", "tool_options"]

/-- The options of a language in a record, whatever else is in it. -/
def ofRecord (parallelism : Nat) (r : Record) : Checked LanguageOptions :=
  LanguageOptions.mk <$> r.given "severity_threshold" member .info <*>
    r.given "include_rules" readRules [] <*> r.given "exclude_rules" readRules [] <*>
    r.optional "batch_size" (wholeWithin 1 maxBatchSize) <*>
    r.given "timeout_ms" (wholeFrom 1) (standard parallelism).timeoutMs <*>
    r.given "parallelism" (wholeFrom 1) parallelism <*> r.optional "tool_selection" readTools <*>
    r.given "include_tests" truth true <*>
    r.given "tool_options" (tableOf (tableOf anything)) []

/-- Reads the options of a language. -/
def read (parallelism : Nat) : Datum → Checked LanguageOptions :=
  aliasedRecord "LanguageOptions" fun r =>
    (fun options _ => options) <$> ofRecord parallelism r <*> r.closed fields

/-- The options of a language under their names. -/
def entries (o : LanguageOptions) : List (String × Datum) :=
  [("severity_threshold", writtenMember o.severityThreshold),
    ("include_rules", writtenTexts o.includeRules), ("exclude_rules", writtenTexts o.excludeRules),
    ("batch_size", (o.batchSize.map writtenNat).getD .null), ("timeout_ms", writtenNat o.timeoutMs),
    ("parallelism", writtenNat o.parallelism),
    ("tool_selection", (o.toolSelection.map writtenTexts).getD .null),
    ("include_tests", .bool o.includeTests),
    ("tool_options", .table (o.toolOptions.map fun (tool, settings) => (tool, .table settings)))]

/-- Writes the options of a language. -/
def write (o : LanguageOptions) : Datum := written .camel o.entries

/-- The options of a language, read again after some of them were replaced. -/
def revised (parallelism : Nat) (changes : List (String × Datum)) (o : LanguageOptions) :
    Checked LanguageOptions :=
  read parallelism (.table (changes.foldl (fun done (name, d) => Datum.insert name d done) o.entries))

end LanguageOptions

namespace ResourceLimits

/-- The names of the limits. -/
def fields : List String :=
  ["max_files", "max_depth", "max_file_bytes", "max_aggregate_bytes", "max_output_bytes",
    "grace_period_ms"]

/-- Reads the limits. -/
def read : Datum → Checked ResourceLimits :=
  aliasedRecord "ResourceLimits" fun r =>
    let standard : ResourceLimits := {}
    (fun limits _ => limits) <$>
      (ResourceLimits.mk <$> r.given "max_files" (wholeFrom 1) standard.maxFiles <*>
        r.given "max_depth" (wholeFrom 0) standard.maxDepth <*>
        r.given "max_file_bytes" (wholeFrom 1) standard.maxFileBytes <*>
        r.given "max_aggregate_bytes" (wholeFrom 1) standard.maxAggregateBytes <*>
        r.given "max_output_bytes" (wholeFrom 1) standard.maxOutputBytes <*>
        r.given "grace_period_ms" (wholeFrom 0) standard.gracePeriodMs) <*>
      r.closed fields

/-- Writes the limits. -/
def write (l : ResourceLimits) : Datum :=
  written .camel
    [("max_files", writtenNat l.maxFiles), ("max_depth", writtenNat l.maxDepth),
      ("max_file_bytes", writtenNat l.maxFileBytes),
      ("max_aggregate_bytes", writtenNat l.maxAggregateBytes),
      ("max_output_bytes", writtenNat l.maxOutputBytes),
      ("grace_period_ms", writtenNat l.gracePeriodMs)]

end ResourceLimits

namespace AnalysisOptions

/-- The names of the options of a run. -/
def fields : List String :=
  ["rust", "go", "c", "cpp", "python", "limits", "availability_ttl_seconds", "workers"]

/-- The options of a run in a record, whatever else is in it. -/
def ofRecord (parallelism : Nat) (r : Record) : Checked AnalysisOptions :=
  let block := LanguageOptions.read parallelism
  let standard := LanguageOptions.standard parallelism
  AnalysisOptions.mk <$> r.given "rust" block standard <*> r.given "go" block standard <*>
    r.given "c" block standard <*> r.given "cpp" block standard <*>
    r.given "python" block standard <*> r.given "limits" ResourceLimits.read {} <*>
    r.given "availability_ttl_seconds" numberFromZero 300.0 <*>
    r.given "workers" (fun d => (wholeFrom 1 d).map Int.ofNat) parallelism

/-- Reads the options of a run. -/
def read (parallelism : Nat) : Datum → Checked AnalysisOptions :=
  aliasedRecord "AnalysisOptions" fun r =>
    (fun options _ => options) <$> ofRecord parallelism r <*> r.closed fields

/-- Writes the options of a run. -/
def write (o : AnalysisOptions) : Datum :=
  written .camel
    [("rust", o.rust.write), ("go", o.go.write), ("c", o.c.write), ("cpp", o.cpp.write),
      ("python", o.python.write), ("limits", o.limits.write),
      ("availability_ttl_seconds", .float o.availabilityTtlSeconds), ("workers", .int o.workers)]

/-- A key of any kind, and its value. -/
abbrev Pair := Datum × Datum

/-- The entry that the value at a place makes up: its two parts. -/
def pairOf (place : Nat) (d : Datum) : Except Breach Pair := do
  match ← d.parts with
  | [key, value] => return (← key.asKey, value)
  | parts => throw (.badValue ("dictionary update sequence element #" ++ Decimal.natText place ++
      " has length " ++ Decimal.natText parts.length ++ "; 2 is required"))

/-- The entries that a row of values makes up, from a place on. -/
def pairsFrom : Nat → List Datum → Except Breach (List Pair)
  | _, [] => .ok []
  | place, d :: rest => do
    let pair ← pairOf place d
    return pair :: (← pairsFrom (place + 1) rest)

/-- The entries with one more, which takes the place of an entry with an equal key. -/
def withPair (pairs : List Pair) (p : Pair) : List Pair :=
  if pairs.any fun q => q.1.same p.1 then
    pairs.map fun q => if q.1.same p.1 then (q.1, p.2) else q
  else pairs ++ [p]

/-- The name under which a key that is no text is reported. -/
def keyName : Datum → String
  | .bool b => if b then "1" else "0"
  | d => d.shown

/-- Reads the options of a run from entries whose keys may be anything. -/
def readPairs (parallelism : Nat) (pairs : List Pair) : Checked AnalysisOptions :=
  let r : Record := ⟨pairs.filterMap textual, true⟩
  (fun options _ => options) <$> ofRecord parallelism r <*>
    Checked.all (pairs.map fun (key, _) => match key with
      | .text s => if (r.used fields).contains s then .good ()
        else (Checked.complain .unexpected).under (.key s)
      | key => (Checked.complain .notKey).under (.key (keyName key)))
where
  textual : Pair → Option (String × Datum)
    | (.text s, d) => some (s, d)
    | _ => none

/-- What a configuration says: nothing if it counts as false, a table, or a row of entries. -/
def readConfiguration (parallelism : Nat) (d : Datum) : Except Breach (Checked AnalysisOptions) :=
  if !d.isTruthy then .ok (read parallelism (.table []))
  else match d with
    | .table _ => .ok (read parallelism d)
    | d => do
      let pairs ← pairsFrom 0 (← d.parts)
      return readPairs parallelism (pairs.foldl withPair [])

/-- The options that a configuration asks for; faults are a problem of the input. -/
def ofConfiguration (parallelism : Nat) (d : Datum) : Except Failure AnalysisOptions :=
  match readConfiguration parallelism d with
  | .error b => .error (.breach b)
  | .ok (.good options) => .ok options
  | .ok (.bad faults) => .error (Failure.of .unknownOption (faultsText faults))

end AnalysisOptions

/-- Reads what the user says beside the configuration. -/
def Overrides.read (tools timeout : Datum) (workers : Option Int) : Checked Overrides :=
  (fun timeoutMs toolSelection => { toolSelection, timeoutMs, workers }) <$>
    (nullable (wholeFrom 1) timeout).under (.key "timeout_ms") <*>
    (nullable readTools tools).under (.key "tool_selection")

namespace Overrides

/-- What takes the place of an option; null says nothing. -/
def change (name : String) : Datum → List (String × Datum)
  | .null => []
  | d => [(name, d)]

/-- The options of a language that the user says otherwise. -/
def changes (tools timeout : Datum) : List (String × Datum) :=
  change "tool_selection" tools ++ change "timeout_ms" timeout

end Overrides

namespace AnalysisOptions

/-- The options with every block revised, one language after another. The first block that cannot be read
is reported. -/
def revised (parallelism : Nat) (changes : List (String × Datum)) (o : AnalysisOptions) :
    Checked AnalysisOptions :=
  Language.all.foldl (fun done language => done.andThen fun done =>
    ((o.block language).revised parallelism changes).map fun block => done.withBlock block language) (.good o)

/-- The options with what the user says beside the configuration, in every block. The number of workers is
taken as it is. -/
def withOverrides (parallelism : Nat) (o : AnalysisOptions) (tools timeout : Datum)
    (workers : Option Int) : Checked AnalysisOptions :=
  let changes := Overrides.changes tools timeout
  let revised := if changes.isEmpty then .good o else o.revised parallelism changes
  revised.map fun revised => { revised with workers := workers.getD o.workers }

end AnalysisOptions

end Assay

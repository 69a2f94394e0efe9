import Assay.PropertyList
import Assay.Readers.Harvest
import Assay.Labels

/-!
# Findings of the Clang static analyzer

The output is a property list with a table of files and a list of diagnostics. A diagnostic is
classified by the name of its checker, else by the label of its bug category.
-/

namespace Assay.Readers

namespace Clang

/-- The labels of bug categories and their severities. -/
def severities : SeverityTable :=
  [("security", .high), ("memory error", .high), ("dead code", .low), ("logic error", .medium),
    ("api", .medium), ("unix api", .medium), ("core foundation/objective-c", .medium),
    ("memory (core foundation/objective-c/osobject)", .medium)]

/-- The labels of bug categories and their categories. -/
def labelCategories : List (String × Category) :=
  [("security", .security), ("memory error", .memorySafety), ("dead code", .deadCode),
    ("logic error", .correctness), ("api", .correctness), ("unix api", .correctness)]

/-- The beginnings of names of checkers and their categories; the first that fits counts. -/
def checkerCategories : List (String × Category) :=
  [("core.NullDereference", .memorySafety), ("core.NonNullParamChecker", .memorySafety),
    ("core.StackAddressEscape", .memorySafety), ("core.uninitialized.", .memorySafety),
    ("core.CallAndMessage", .memorySafety), ("core.DivideZero", .correctness),
    ("unix.Malloc", .memorySafety), ("unix.MismatchedDeallocator", .memorySafety),
    ("cplusplus.NewDelete", .memorySafety), ("alpha.security.ArrayBound", .memorySafety),
    ("alpha.unix.cstring.OutOfBounds", .memorySafety), ("security.", .security),
    ("alpha.security.", .security), ("deadcode.", .deadCode), ("alpha.deadcode.", .deadCode)]

/-- Parts of names of checkers and the patterns that they hint at. -/
def checkerPatterns : List (String × String) :=
  [("NullDereference", "null_deref"), ("NonNullParamChecker", "null_deref"),
    ("unix.Malloc", "memory_leak"), ("NewDelete", "memory_leak"), ("deadcode.", "dead_code"),
    ("security.insecureAPI", "weak_crypto"), ("security.", "security_vulnerability"),
    ("taint", "injection")]

/-- The category of a diagnostic by its checker and its label. -/
def category (checker : Option String) (label : String) : Category :=
  match checker.bind fun name => checkerCategories.find? fun (start, _) => Text.hasStart start name with
  | some (_, found) => found
  | none => (labelCategories.lookup (Text.lower (Text.strip label))).getD .other

/-- The patterns that a checker hints at, each once. -/
def hints (checker : Option String) : List String :=
  match checker with
  | none => []
  | some name =>
    (checkerPatterns.filterMap fun (part, pattern) =>
      if Text.contains part name then some pattern else none).eraseDups

/-- The file of a location: a number is its place in the table of files. -/
def fileOf (location : Datum) (files : List Datum) : Field String :=
  match location.get "file" with
  | .int n =>
    match if 0 ≤ n then files[n.toNat]? else none with
    | some (.text path) => .ok path
    | _ => .error (.badValue ("file index " ++ Decimal.intText n ++ " outside the plist file table"))
  | reference =>
    match text reference with
    | some path => .ok path
    | none => .error (.badValue "diagnostic location without a file")

/-- The end of the first range that opens on a line, in a row of ranges; `none` if no range does. -/
def endIn (line : Option Int) : List Datum → Field (Option (Option Int × Option Int))
  | [] => .ok none
  | .list [start, finish] :: rest => do
    if start.isTable && finish.isTable then
      if (← whole (start.get "line")) == line then
        return some (← whole (finish.get "line"), ← whole (finish.get "col"))
    endIn line rest
  | _ :: rest => endIn line rest

/-- The end of a diagnostic by the ranges of its path. -/
def endAlong (line : Option Int) : List Datum → Field (Option Int × Option Int)
  | [] => .ok (none, none)
  | piece :: rest => do
    match ← endIn line (← items (piece.get "ranges")) with
    | some found => return found
    | none => endAlong line rest

/-- The tag of a label. -/
def labelTag (label : String) : String :=
  if label.isEmpty then "uncategorised" else Text.replaceChar ' ' "-" (Text.lower label)

/-- The finding of one diagnostic. -/
def record (root : Files.Path) (files : List Datum) (diagnostic : Datum) : Field (List RawIssue) := do
  let location := diagnostic.get "location"
  if !location.isTable then throw (.badValue "diagnostic without a location")
  let path ← fileOf location files
  let label := (text (diagnostic.get "category")).getD ""
  let checker := text (diagnostic.get "check_name")
  let (severity, known) := Severity.ofLabel severities (.text label)
  let description := (text (diagnostic.get "description")).getD "Clang static analyzer finding"
  let line ← whole (location.get "line")
  let (endLine, endColumn) ← endAlong line (diagnostic.get "path").tables
  let column ← whole (location.get "col")
  return [{
    file := fileAt root path
    line, column, endLine, endColumn, severity
    severityKnown := known
    category := some (Vocabulary.name (category checker label))
    rule := some (checker.getD unknownRule)
    title := (text (diagnostic.get "type")).getD description
    description
    confidence := some .medium
    tags := ["c-cpp", "clang", labelTag label] ++ (if known then [] else [unknownLabelTag])
    patternHints := hints checker }]

end Clang

/-- The findings of the analyzer in a property list. -/
def clang (root : Files.Path) (list : Markup.Element) : Except Failure Harvest :=
  match PropertyList.decode list with
  | .error .tooDeep => .error (Failure.of .unparseableOutput "plist nested too deeply")
  | .error breach => .error (.breach breach)
  | .ok document =>
    let files := match document.get "files" with
      | .list files => files
      | _ => []
    match harvest (Clang.record root files) (document.get "diagnostics").tables with
    | .ok h => .ok h
    | .error breach => .error (.breach breach)

end Assay.Readers

import Assay.Readers.Code
import Assay.Readers.Harvest
import Assay.Labels

/-!
# Findings of staticcheck

Each line of the output is a finding. Its code belongs to a family, which decides on category and
severity; a few codes have a narrower category of their own.
-/

namespace Assay.Readers

namespace Staticcheck

/-- A family of checks. -/
structure Family where
  description : String
  category : Category
  severity : Severity
  tag : String
deriving Repr, DecidableEq

/-- The families by the beginnings of their codes. -/
def families : List (String × Family) :=
  [("SA1", ⟨"standard library misuse", .correctness, .medium, "stdlib"⟩),
    ("SA2", ⟨"concurrency issues", .correctness, .high, "concurrency"⟩),
    ("SA3", ⟨"testing issues", .correctness, .medium, "testing"⟩),
    ("SA4", ⟨"code that does nothing", .suspicious, .medium, "no-op"⟩),
    ("SA5", ⟨"correctness issues", .correctness, .high, "correctness"⟩),
    ("SA6", ⟨"performance issues", .performance, .medium, "performance"⟩),
    ("SA9", ⟨"questionable constructs", .suspicious, .medium, "questionable"⟩),
    ("S1", ⟨"code simplifications", .complexity, .low, "simplification"⟩),
    ("ST1", ⟨"stylistic issues", .style, .low, "style"⟩),
    ("QF1", ⟨"quick fixes", .style, .low, "quickfix"⟩),
    ("U1", ⟨"unused code", .unused, .low, "dead-code"⟩)]

/-- The family of a code: that of its first three characters, else that of its first two. -/
def family? (code : String) : Option Family :=
  (families.lookup (Text.take 3 code)).or (families.lookup (Text.take 2 code))

/-- Checks whose meaning is narrower than that of their family. -/
def ownCategories : List (String × Category) :=
  [("SA1019", .deprecated), ("SA4006", .unused), ("SA4009", .unused)]

/-- The code of what the compiler says. -/
def compileCode : String := "compile"

/-- The page that describes a check. -/
def checkPage (code : String) : String := "https://staticcheck.io/docs/checks#" ++ code

/-- What a code says about a finding: rule, category, severity and tag. -/
def verdict (code : String) : String × Category × Severity × String :=
  if code == compileCode then (compileCode, .correctness, .high, "compile")
  else
    match (some code).filter isStaticcheckCode >>= family? with
    | some family =>
      (code, (ownCategories.lookup code).getD family.category, family.severity, family.tag)
    | none => (unknownRule, .other, .medium, unknownLabelTag)

/-- The finding of one record; what the user chose to ignore is none. -/
def record (root : Files.Path) (item : Datum) : Field (List RawIssue) := do
  if Text.lower ((item.get? "severity").getD (.text "")).display == "ignored" then return []
  let location := item.get "location"
  if !location.isTable then throw (.badValue "staticcheck record without a location")
  match (text (location.get "file")).or (text (location.get "filename")) with
  | none => throw (.badValue "staticcheck record without a file")
  | some file =>
    let (rule, category, severity, tag) := verdict ((text (item.get "code")).getD "")
    let message := (text (item.get "message")).getD "staticcheck finding"
    let line ← whole (location.get "line")
    let column ← whole (location.get "column")
    let endLine ← whole (item.dig ["end", "line"])
    let endColumn ← whole (item.dig ["end", "column"])
    return [{
      file := fileAt root file
      line, column, endLine, endColumn, severity
      severityKnown := rule != unknownRule
      category := some (Vocabulary.name category)
      rule := some rule
      title := message
      description := message
      confidence := if category == .correctness then some .high else none
      tags := ["go", "staticcheck", tag]
      refs := if isStaticcheckCode rule then some { advisoryUrl := some (checkPage rule) } else none }]

end Staticcheck

/-- The findings of staticcheck in a list of records. -/
def staticcheck (root : Files.Path) (records : Datum) : Except Breach Harvest :=
  harvest (Staticcheck.record root) records.tables

end Assay.Readers

import Assay.Severity
import Assay.Text.Case
import Assay.Text.Blank
import Assay.Text.Split

/-!
# Labels

Tools name severities and categories in their own words. A severity label is looked up in the tool's
table without regard to case and surrounding blanks; a category label is read as a category or one of
its common other names, and kept for the record when it is neither.
-/

namespace Assay

/-- The tag of a finding whose severity label is in no table. -/
def unknownLabelTag : String := "unmapped-severity"

/-- The tool's words for severities, in lower case. -/
abbrev SeverityTable := List (String × Severity)

/-- The severity that a label stands for and whether the label was known. -/
def Severity.ofLabel (table : SeverityTable) (label : Datum) (fallback : Severity := .medium) :
    Severity × Bool :=
  match label with
  | .text s =>
    match table.lookup (Text.lower (Text.strip s)) with
    | some found => (found, true)
    | none => (fallback, false)
  | _ => (fallback, false)

namespace Category

/-- Other names of categories. -/
def synonyms : List (String × Category) :=
  [("bug", correctness), ("logic", correctness), ("memory", memorySafety),
    ("memory-error", memorySafety), ("deadcode", deadCode), ("typing", type), ("types", type),
    ("perf", performance), ("convention", style), ("refactor", complexity)]

/-- The category that a label stands for, and the label itself when it stands for none. -/
def ofLabel (label : Option String) : Category × Option String :=
  match label with
  | none | some "" => (other, none)
  | some s =>
    let plain := Text.replaceChar '_' "-" (Text.lower (Text.strip s))
    match synonyms.lookup plain with
    | some found => (found, none)
    | none =>
      match Vocabulary.ofName? plain with
      | some found => (found, none)
      | none => (other, some s)

end Category

end Assay

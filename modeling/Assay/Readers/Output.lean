import Assay.Json.Reader
import Assay.Markup.Document
import Assay.Problem
import Assay.Text.Split
import Assay.Readers.Harvest

/-!
# Reading the output of tools

Outputs come as one document, as a document on each line, or as markup. One broken document spoils the
output; a broken line only counts as left out, unless no line is good.
-/

namespace Assay.Readers

/-- The failure of an output that is not in its format. -/
def unreadable (detail : String) : Failure := Failure.of .unparseableOutput detail

/-- The document that makes up an output, null for a blank one. -/
def jsonDocument (output : String) : Except Failure Datum :=
  match Text.trim output.toList with
  | [] => .ok .null
  | cs =>
    match Json.read? cs with
    | .ok d => .ok d
    | .error f =>
      match f.cause with
      | .tooDeep => .error (unreadable f.cause.text)
      | .tooLong _ => .error (.breach (.badValue f.cause.text))
      | cause =>
        .error (unreadable ("invalid JSON: " ++ cause.text ++ " at line " ++
          Decimal.natText (f.line cs)))

/-- The reason for leaving out a line that is no document. -/
def brokenLine : String := "undecodable JSON line"

/-- The document on each line that is not blank; `none` for a broken one. -/
def lineDocuments : List (List Char) → Except Failure (List (Option Datum))
  | [] => .ok []
  | cs :: rest =>
    match Json.read? cs with
    | .ok d => (lineDocuments rest).map (some d :: ·)
    | .error f =>
      match f.cause with
      | .tooLong _ => .error (.breach (.badValue f.cause.text))
      | _ => (lineDocuments rest).map (none :: ·)

/-- The documents on the lines of an output, and how many lines are none. -/
def jsonLines (output : String) : Except Failure (List Datum × Nat) := do
  let trimmed := (Text.lines output).map fun line => Text.trim line.toList
  let found ← lineDocuments (trimmed.filter fun cs => !cs.isEmpty)
  let documents := found.filterMap id
  let broken := found.length - documents.length
  if 0 < broken && documents.isEmpty then
    throw (unreadable ("none of " ++ Decimal.natText broken ++ " output lines were valid JSON"))
  return (documents, broken)

/-- The outermost element of an output. -/
def markup (output : String) : Except Failure Markup.Element :=
  if Text.isBlankText output then .error (unreadable "empty XML document")
  else
    match Markup.read? output with
    | some root => .ok root
    | none => .error (unreadable "invalid XML")

/-- How an output is read: the findings in it, with paths taken from a directory. -/
abbrev Reader := Files.Path → String → Except Failure Harvest

/-- The outcome of reading records, with what no record accounts for as a breach. -/
def breaching (h : Except Breach Harvest) : Except Failure Harvest := h.mapError Failure.breach

/-- Reads an output that is one document; a document that is null holds nothing. -/
def ofDocument (read : Files.Path → Datum → Except Breach Harvest) : Reader := fun root output => do
  match ← jsonDocument output with
  | .null => return {}
  | document => breaching (read root document)

/-- Reads an output with a document on each line. The broken lines are left out first. -/
def ofLines (read : Files.Path → Datum → Except Breach Harvest) : Reader := fun root output => do
  let (documents, broken) ← jsonLines output
  let found ← breaching (read root (.list documents))
  return ({ drops := List.replicate broken brokenLine } : Harvest) ++ found

/-- Reads an output line by line. -/
def ofTextLines (read : Files.Path → List String → Except Breach Harvest) : Reader :=
  fun root output => breaching (read root (Text.lines output))

/-- Reads an output in markup. -/
def ofMarkup (read : Files.Path → Markup.Element → Except Failure Harvest) : Reader :=
  fun root output => do read root (← markup output)

end Assay.Readers

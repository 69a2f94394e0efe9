import Assay.Readers.Code
import Assay.Readers.Harvest
import Assay.Labels

/-!
# Findings of pylint

The output is one document: a list of messages, or a table that holds such a list. Columns are counted
from zero there and from one here.
-/

namespace Assay.Readers

namespace Pylint

/-- The kinds of messages and their severities. -/
def severities : SeverityTable :=
  [("fatal", .high), ("error", .high), ("warning", .medium), ("refactor", .low),
    ("convention", .low), ("info", .info)]

/-- The kinds of messages and their categories. -/
def kindCategories : List (String × Category) :=
  [("fatal", .correctness), ("error", .correctness), ("warning", .suspicious),
    ("refactor", .complexity), ("convention", .style), ("info", .other)]

/-- The beginnings of symbols that tell more than the kind. -/
def symbolCategories : List (String × Category) :=
  [("unused-", .unused), ("deprecated-", .deprecated), ("unreachable", .deadCode),
    ("too-many-", .complexity), ("eval-used", .security), ("exec-used", .security)]

/-- The labels of confidence, in upper case. -/
def confidences : List (String × Confidence) :=
  [("HIGH", .high), ("CONTROL_FLOW", .high), ("INFERENCE", .medium), ("INFERENCE_FAILURE", .low)]

/-- The category of a message by its symbol, else by its kind. -/
def category (kind symbol : String) : Category :=
  match symbolCategories.find? fun (start, _) => Text.hasStart start symbol with
  | some (_, found) => found
  | none => (kindCategories.lookup kind).getD .other

/-- The finding of one message. -/
def record (root : Files.Path) (item : Datum) : Field (List RawIssue) := do
  match (text (item.get "path")).or (text (item.get "filename")) with
  | none => throw (.badValue "pylint message without a path")
  | some path =>
    let kind := Text.lower ((item.get? "type").getD (.text "warning")).display
    let (severity, known) := Severity.ofLabel severities (.text kind)
    let id := (text (item.get "message-id")).or (text (item.get "messageId"))
    let symbol := text (item.get "symbol")
    let message := ((text (item.get "message")).or symbol).getD "pylint message"
    let confidence := confidences.lookup
      (Text.upper ((item.get? "confidence").getD (.text "")).display)
    let column ← whole (item.get "column")
    let endColumn ← whole (item.get "endColumn")
    let line ← whole (item.get "line")
    let endLine ← whole (item.get "endLine")
    return [{
      file := fileAt root path
      line
      column := column.map (· + 1)
      endLine
      endColumn := endColumn.map (· + 1)
      severity
      severityKnown := known
      category := some (Vocabulary.name (category kind (symbol.getD "")))
      rule := some ((id.filter isPylintCode).getD unknownRule)
      title := (symbol.map fun s => s ++ ": " ++ message).getD message
      description := message
      confidence
      tags := ["python", "pylint", kind] ++ symbol.toList ++
        (if known then [] else [unknownLabelTag]) }]

end Pylint

/-- The findings of pylint in a document. -/
def pylint (root : Files.Path) (document : Datum) : Except Breach Harvest :=
  let messages := if document.isTable then document.get "messages" else document
  harvest (Pylint.record root) messages.tables

end Assay.Readers

import Assay.Labels
import Assay.Readers.Code
import Assay.Readers.Harvest

/-!
# Findings of mypy

Each line of the output reads `path:line:` with a column, an end, or both, then a severity and a
message that may end in a code in brackets. All other lines, and notes, are no findings.
-/

namespace Assay.Readers

namespace Mypy

/-- A line as the tool wrote it, with its numbers still in digits. -/
structure Line where
  path : List Char
  line : List Char
  column : Option (List Char)
  finish : Option (List Char × List Char)
  severity : String
  message : List Char
  code : Option String
deriving Repr, DecidableEq

/-- A number and the colon behind it. -/
def numberAt? (cs : List Char) : Option (List Char × List Char) :=
  match cs.takeWhile Text.isDecimal, cs.dropWhile Text.isDecimal with
  | [], _ => none
  | digits, ':' :: rest => some (digits, rest)
  | _, _ => none

/-- At most `fuel` numbers with a colon behind each, and the text after them. -/
def numbersAt : (fuel : Nat) → List Char → List (List Char) × List Char
  | 0, cs => ([], cs)
  | fuel + 1, cs =>
    match numberAt? cs with
    | some (digits, rest) =>
      let (others, after) := numbersAt fuel rest
      (digits :: others, after)
    | none => ([], cs)

/-- The words for severities. -/
def severityWords : List String := ["error", "warning", "note"]

/-- The severities of the words; a note is no finding. -/
def severities : SeverityTable := [("error", .medium), ("warning", .low)]

/-- A word for a severity with a colon, after blanks, and the text behind it. -/
def severityAt? (cs : List Char) : Option (String × List Char) :=
  let cs := Text.trimStart cs
  severityWords.findSome? fun word =>
    (Text.dropStart? (word.toList ++ [':']) cs).map fun rest => (word, rest)

/-- A character of a code. -/
def isCodeCharacter (c : Char) : Bool := ('a' ≤ c && c ≤ 'z') || ('0' ≤ c && c ≤ '9') || c == '-'

/-- A message that ends in a code in brackets, parted from it by blanks, without them. -/
def splitCode? (cs : List Char) : Option (List Char × String) :=
  match cs.reverse with
  | ']' :: rest =>
    let code := rest.takeWhile isCodeCharacter
    match code, rest.drop code.length with
    | _ :: _, '[' :: before =>
      let message := before.dropWhile Text.isBlank
      if before.length == message.length || message.isEmpty then none
      else some (message.reverse, String.ofList code.reverse)
    | _, _ => none
  | _ => none

/-- The column and the end in a row of numbers. -/
def placesOf? : List (List Char) → Option (Option (List Char) × Option (List Char × List Char))
  | [] => some (none, none)
  | [column] => some (some column, none)
  | [line, column] => some (none, some (line, column))
  | [column, line, endColumn] => some (some column, some (line, endColumn))
  | _ => none

/-- The parts of a line without blanks around it. -/
def line? (cs : List Char) : Option Line := do
  let (path, rest) ← Text.cut ':' cs
  let (line, rest) ← numberAt? rest
  let (numbers, rest) := numbersAt 3 rest
  let (column, finish) ← placesOf? numbers
  let (severity, rest) ← severityAt? rest
  let body := Text.trimStart rest
  if path.isEmpty || body.isEmpty then none
  let (message, code) := match splitCode? body with
    | some (message, code) => (message, some code)
    | none => (body, none)
  return { path, line, column, finish, severity, message, code }

/-- The categories of codes that tell more than that types do not fit. -/
def codeCategories : List (String × Category) :=
  [("unreachable", .deadCode), ("unused-ignore", .unused), ("unused-coroutine", .unused),
    ("unused-awaitable", .unused), ("redundant-cast", .unused), ("deprecated", .deprecated),
    ("name-defined", .correctness), ("attr-defined", .correctness), ("call-arg", .correctness),
    ("possibly-undefined", .correctness)]

/-- The finding of one line. -/
def finding (root : Files.Path) (l : Line) : Field RawIssue := do
  let line ← readDigits l.line
  let column ← l.column.mapM readDigits
  let endLine ← wholeOfText? (l.finish.map fun (digits, _) => String.ofList digits)
  let endColumn ← wholeOfText? (l.finish.map fun (_, digits) => String.ofList digits)
  let code := l.code.getD unknownRule
  let message := String.ofList (Text.trim l.message)
  return {
    file := fileAt root (String.ofList (Text.trim l.path))
    line := some line
    column, endLine, endColumn
    severity := (Severity.ofLabel severities (.text l.severity) .medium).1
    category := some (Vocabulary.name ((codeCategories.lookup code).getD .type))
    rule := some code
    title := message
    description := message
    tags := ["python", "mypy", "typing"] }

/-- The lines of an output that report something. -/
def reports (lines : List String) : List Line :=
  (lines.filterMap fun s => line? (Text.trim s.toList)).filter fun l => l.severity != "note"

end Mypy

/-- The findings of mypy in the lines of an output. A number that is too long to be read spoils them
all. -/
def mypy (root : Files.Path) (lines : List String) : Except Breach Harvest :=
  match (Mypy.reports lines).mapM (Mypy.finding root) with
  | .ok issues => .ok { issues }
  | .error fault => .error fault.breach

end Assay.Readers

import Assay.Markup.Element
import Assay.Readers.Harvest
import Assay.Labels

/-!
# Findings of valgrind

The output is markup with an element for each error. An error is placed in the first frame of its
stacks that lies in the project, else in the first frame with a file.
-/

namespace Assay.Readers

namespace Valgrind

open Markup (Element)

/-- The kinds of errors with their rules and severities. -/
def kinds : List (String × String × Severity) :=
  [("InvalidRead", "invalid-read", .high), ("InvalidWrite", "invalid-write", .high),
    ("InvalidFree", "invalid-free", .high), ("InvalidJump", "invalid-jump", .high),
    ("MismatchedFree", "mismatched-free", .medium), ("Overlap", "overlapping-copy", .medium),
    ("SyscallParam", "syscall-param", .medium), ("UninitCondition", "uninitialized-value", .medium),
    ("UninitValue", "uninitialized-value", .medium), ("InvalidMemPool", "invalid-mempool", .medium),
    ("FishyValue", "fishy-value", .medium), ("ClientCheck", "client-check", .low),
    ("Leak_DefinitelyLost", "memory-leak", .high), ("Leak_IndirectlyLost", "indirect-leak", .medium),
    ("Leak_PossiblyLost", "possible-leak", .medium), ("Leak_StillReachable", "reachable-leak", .low)]

/-- A place in a program: file, line and function. -/
structure Place where
  path : String
  line : Option Int
  function : Option String
deriving Repr, DecidableEq

/-- A text that is there and not empty. -/
def filled (s : Option String) : Option String := s.filter fun s => !s.isEmpty

/-- The file of a frame, taken from its directory. -/
def framePath? (frame : Element) : Option String := do
  let file ← filled (frame.findText? ["file"])
  match filled (frame.findText? ["dir"]) with
  | some directory => return (Files.Path.ofString directory / Files.Path.ofString file).toString
  | none => return file

/-- The places of the frames that have a file. -/
def places (root : Files.Path) : List Element → Field (List Place)
  | [] => .ok []
  | frame :: rest => do
    match framePath? frame with
    | none => places root rest
    | some path =>
      let line ← wholeOfText? (frame.findText? ["line"])
      let others ← places root rest
      return ⟨resolve root path, line, frame.findText? ["fn"]⟩ :: others

/-- The place that an error is reported at. -/
def primaryPlace (root : Files.Path) (error : Element) : Field Place := do
  let found ← places root (error.findAll ["stack", "frame"])
  match (found.find? fun p => (Files.Path.ofString p.path).isWithin root).or found.head? with
  | some place => return place
  | none => throw (.badValue "valgrind error without a source frame")

/-- The finding of one error. -/
def record (root : Files.Path) (error : Element) : Field (List RawIssue) := do
  let kind := Text.strip ((error.findText? ["kind"]).getD "")
  if kind.isEmpty then throw (.badValue "valgrind error without a kind")
  let known := (kinds.lookup kind).isSome
  let (rule, severity) := (kinds.lookup kind).getD (unknownRule, .medium)
  let what := Text.strip
    (((filled (error.findText? ["what"])).or (filled (error.findText? ["xwhat", "text"]))).getD kind)
  let place ← primaryPlace root error
  let leaked ← wholeOfText? (error.findText? ["xwhat", "leakedbytes"])
  let leakedLine := (leaked.map fun n => "Leaked bytes: " ++ Decimal.intText n).toList
  let functionLine := ((filled place.function).map fun name => "In function: " ++ name).toList
  return [{
    file := cleanFile place.path
    line := place.line
    severity
    severityKnown := known
    category := some (Vocabulary.name Category.memorySafety)
    rule := some rule
    title := what
    description := Text.join "\n" ([what] ++ leakedLine ++ functionLine)
    confidence := some .high
    tags := ["c-cpp", "valgrind", "memcheck", kind] ++ (if known then [] else [unknownLabelTag])
    patternHints := if Text.hasStart "Leak_" kind then ["memory_leak"] else [] }]

end Valgrind

/-- The findings of valgrind in a document. -/
def valgrind (root : Files.Path) (document : Markup.Element) : Except Breach Harvest :=
  harvest (Valgrind.record root) (document.childrenOf "error")

end Assay.Readers

import Assay.Vocabulary

/-!
# Problems

Everything that can go wrong has a kind, and every kind belongs to a reach: a problem of the input
ends the whole run, all others stay with the tool that met them.
-/

namespace Assay

/-- How far a problem reaches. -/
inductive Reach where
  | input
  | environment
  | execution
  | parsing
  | resource
deriving Repr, DecidableEq

instance : Vocabulary Reach where
  title := "ErrorClass"
  members := [.input, .environment, .execution, .parsing, .resource]
  name
    | .input => "input"
    | .environment => "environment"
    | .execution => "execution"
    | .parsing => "parsing"
    | .resource => "resource"

/-- What kind of thing went wrong. -/
inductive ProblemKind where
  | pathTraversal
  | escapedRoot
  | disallowedExtension
  | fileTooLarge
  | blockedPath
  | missingPath
  | projectNotFound
  | unknownOption
  | unsafeArgument
  | toolUnavailable
  | toolVersionUnsupported
  | timeout
  | outputOverflow
  | nonZeroExit
  | processSpawnFailed
  | cancelled
  | malformedRecord
  | unparseableOutput
  | memoryCap
  | fileLimit
deriving Repr, DecidableEq, Inhabited

namespace ProblemKind

instance : Vocabulary ProblemKind where
  title := "ErrorKind"
  members := [pathTraversal, escapedRoot, disallowedExtension, fileTooLarge, blockedPath, missingPath,
    projectNotFound, unknownOption, unsafeArgument, toolUnavailable, toolVersionUnsupported, timeout,
    outputOverflow, nonZeroExit, processSpawnFailed, cancelled, malformedRecord, unparseableOutput,
    memoryCap, fileLimit]
  name
    | pathTraversal => "PathTraversal"
    | escapedRoot => "EscapedRoot"
    | disallowedExtension => "DisallowedExtension"
    | fileTooLarge => "FileTooLarge"
    | blockedPath => "BlockedPath"
    | missingPath => "MissingPath"
    | projectNotFound => "ProjectNotFound"
    | unknownOption => "UnknownOption"
    | unsafeArgument => "UnsafeArgument"
    | toolUnavailable => "ToolUnavailable"
    | toolVersionUnsupported => "ToolVersionUnsupported"
    | timeout => "Timeout"
    | outputOverflow => "OutputOverflow"
    | nonZeroExit => "NonZeroExitWithoutParseableOutput"
    | processSpawnFailed => "ProcessSpawnFailed"
    | cancelled => "Cancelled"
    | malformedRecord => "MalformedRecord"
    | unparseableOutput => "UnparseableOutput"
    | memoryCap => "MemoryCap"
    | fileLimit => "FileLimit"

/-- The reach of a kind. -/
def reach : ProblemKind → Reach
  | pathTraversal | escapedRoot | disallowedExtension | fileTooLarge | blockedPath | missingPath
  | projectNotFound | unknownOption | unsafeArgument => .input
  | toolUnavailable | toolVersionUnsupported => .environment
  | timeout | outputOverflow | nonZeroExit | processSpawnFailed | cancelled => .execution
  | malformedRecord | unparseableOutput => .parsing
  | memoryCap | fileLimit => .resource

/-- The name of a kind in documents and messages. -/
def name (k : ProblemKind) : String := Vocabulary.name k

end ProblemKind

/-- A problem: its kind and, where there is more to say, a detail. -/
structure Problem where
  kind : ProblemKind
  detail : String
deriving Repr, DecidableEq, Inhabited

/-- The kind, and the detail after a colon if there is one. -/
def Problem.message (p : Problem) : String :=
  if p.detail.isEmpty then p.kind.name else p.kind.name ++ ": " ++ p.detail

/-- What is thrown beside a problem: breaches that no rule of this library accounts for. -/
inductive Breach where
  /-- A path whose links lead back to themselves where a plain path was expected. -/
  | linkLoop (path : String)
  /-- The file system refused to look at a path at all. -/
  | fileSystem
  /-- A file that holds bytes was to be read as a text. -/
  | undecodable
  /-- The operating system refused something, with the text of its complaint. -/
  | refused (text : String)
  /-- A value that cannot be worked with, with the text of its complaint. -/
  | badValue (text : String)
  /-- A number without end was to be made whole. -/
  | infiniteNumber
  /-- A whole number was to be made a double that is beyond all of them. -/
  | oversizedNumber
  /-- A quotient of whole numbers was to be made a double that is beyond all of them. -/
  | oversizedQuotient
  /-- An operation met a value of the wrong kind. -/
  | wrongKind
  /-- A value does not bring along the operation that was asked of it. -/
  | unsupported
  /-- A state machine was asked for a step that it does not have. -/
  | illegalStep (text : String)
  /-- A name is in no table. -/
  | missingKey (key : String)
  /-- Documents nested beyond what is followed. -/
  | tooDeep
  /-- A document does not fit its model; the text lists the faults. -/
  | invalid (text : String)
deriving Repr, DecidableEq

/-- The text of a breach. -/
def Breach.message : Breach → String
  | .linkLoop path => "Symlink loop from " ++ Text.quoted path
  | .fileSystem | .undecodable | .wrongKind | .unsupported => ""
  | .badValue text | .illegalStep text | .invalid text | .refused text => text
  | .infiniteNumber => "cannot convert float infinity to integer"
  | .oversizedNumber => "int too large to convert to float"
  | .oversizedQuotient => "integer division result too large for a float"
  | .missingKey key => Text.quoted key
  | .tooDeep => "maximum recursion depth exceeded"

/-- The class of a breach, by which messages name it. -/
def Breach.title : Breach → String
  | .linkLoop _ | .illegalStep _ => "RuntimeError"
  | .fileSystem | .refused _ => "OSError"
  | .undecodable => "UnicodeDecodeError"
  | .badValue _ => "ValueError"
  | .infiniteNumber | .oversizedNumber | .oversizedQuotient => "OverflowError"
  | .wrongKind => "TypeError"
  | .unsupported => "AttributeError"
  | .missingKey _ => "KeyError"
  | .tooDeep => "RecursionError"
  | .invalid _ => "ValidationError"

/-- The breach is a refusal of the operating system. -/
def Breach.isRefusal : Breach → Bool
  | .fileSystem | .refused _ => true
  | _ => false

/-- What an operation may fail with. -/
inductive Failure where
  | problem (p : Problem)
  | breach (b : Breach)
deriving Repr, DecidableEq

/-- The failure of a problem given by its parts. -/
def Failure.of (kind : ProblemKind) (detail : String) : Failure := .problem ⟨kind, detail⟩

/-- The problem is one of the input, which ends the whole run. -/
def Problem.isInput (p : Problem) : Bool := p.kind.reach == .input

end Assay

import Assay.Datum.Operand
import Assay.Datum.Written
import Assay.Registry

/-!
# Options as operands

The values of options come from documents and may be of any kind. Here each value meets the operations that
a tool puts it to, when it checks its options and when it makes its commands. An operation fails on a value
that it is not made for, and nothing is taken for granted that no check has established.
-/

namespace Assay

namespace Analyzer

open Files

/-! ## Operations -/

/-- What a tool does with the value of an option when it makes its commands. -/
inductive Operation where
  /-- It looks whether the value counts as true. -/
  | test
  /-- It asks the value for its lower case. -/
  | lower
  /-- It takes the value for a path. -/
  | locate
  /-- It writes the value out. -/
  | write
  /-- It writes every part of the value out. -/
  | writeParts
  /-- It takes the parts of the value, which have to be texts. -/
  | takeTexts
deriving Repr, DecidableEq

/-- The operation meets a value. -/
def Operation.meet : Operation → Datum → Except Breach Unit
  | test, _ => .ok ()
  | lower, d => d.ownText.map fun _ => ()
  | locate, d => d.asText.map fun _ => ()
  | write, d => d.told.map fun _ => ()
  | writeParts, d => do (← d.parts).forM fun part => part.told.map fun _ => ()
  | takeTexts, d => do (← d.parts).forM fun part => part.asText.map fun _ => ()

/-- The value of an option, unless it is missing or null. -/
def given? (settings : ToolSettings) (name : String) : Option Datum :=
  match Datum.lookup name settings with
  | none | some .null => none
  | some d => some d

/-- The parts of the value of an option, none if it is missing. -/
def partsOf (settings : ToolSettings) (name : String) : Except Breach (List Datum) :=
  match Datum.lookup name settings with
  | none => .ok []
  | some d => d.parts

/-- Every operation meets the value of its option, if that is given. -/
def operate (operations : List (String × Operation)) (settings : ToolSettings) : Except Breach Unit :=
  operations.forM fun (name, operation) =>
    match given? settings name with
    | none => .ok ()
    | some d => operation.meet d

/-! ## Checks -/

/-- The refusal of options with a complaint. -/
def refusal (a : Analyzer) (complaint : String) : Failure :=
  .of .unknownOption (a.name ++ ": " ++ complaint)

/-- Refuses a value with a complaint that shows it. -/
def refuse (a : Analyzer) (complaint : String → String) (d : Datum) : Except Failure Unit :=
  match d.written with
  | .ok shown => .error (a.refusal (complaint shown))
  | .error b => .error (.breach b)

/-- Checks the value of an option, if it is given, by an operation that decides whether it is admitted. -/
def checkGiven (settings : ToolSettings) (name : String) (admits : Datum → Except Breach Bool)
    (otherwise : Datum → Except Failure Unit) : Except Failure Unit :=
  match given? settings name with
  | none => .ok ()
  | some d => do if ← (admits d).mapError .breach then return () else otherwise d

/-- Checks the parts of the value of an option one by one. -/
def checkParts (settings : ToolSettings) (name : String) (admits : Datum → Bool)
    (otherwise : Datum → Except Failure Unit) : Except Failure Unit := do
  (← (partsOf settings name).mapError .breach).forM fun d => if admits d then .ok () else otherwise d

/-! ## Tools -/

/-- What a tool does with its options. -/
structure Usage where
  analyzer : Analyzer
  /-- The check of the values, after that of names and kinds. -/
  check : ToolSettings → Except Failure Unit := fun _ => .ok ()
  /-- What the values are put to when the commands are made. -/
  operations : List (String × Operation)
  /-- The commands that a task asks for. -/
  plan : Tree → Task → Except Refusal Plan := fun t task => do
    (operate operations task.settings).mapError fun b => Refusal.failed (.breach b)
    analyzer.plan t task

/-- Checks options: their names and kinds, then their values. -/
def Usage.checkOptions (u : Usage) (settings : ToolSettings) : Except Failure Unit :=
  match settings.findSome? u.analyzer.kindComplaint with
  | some complaint => .error (u.analyzer.refusal complaint)
  | none => u.check settings

/-- The lower case of the confidence is one of the levels. -/
def gosecUsage : Usage where
  analyzer := gosec
  check := fun settings => checkGiven settings "confidence"
    (fun d => d.ownText.map fun s => gosecConfidences.contains (Text.lower s))
    (gosec.refuse fun shown => "invalid confidence " ++ shown)
  operations := [("confidence", .lower), ("exclude_generated", .test)]

/-- A language standard is looked up among those that are known. -/
def checkStandard (settings : ToolSettings) (name : String) : Except Failure Unit :=
  checkGiven settings name
    (fun d => d.asKey.map fun key => languageStandards.any fun s => Datum.same (.text s) key)
    (clang.refuse fun shown => "unsupported " ++ name ++ " " ++ shown)

/-- What the Clang analyzer puts its options to, apart from the directories to include from. -/
def clangOperations : List (String × Operation) :=
  [("defines", .writeParts), ("std_c", .write), ("std_cpp", .write)]

/-- A directory to include from is written out and checked. -/
def includeDirectory (t : Tree) (task : Task) (d : Datum) : Except Failure Path := do
  checkOptionPath t task .directory (← d.told.mapError .breach)

/-- The standards are looked up and the definitions are looked at one by one. The directories are checked in
order, each once it is written out. -/
def clangUsage : Usage where
  analyzer := clang
  check := fun settings => do
    checkStandard settings "std_c"
    checkStandard settings "std_cpp"
    checkParts settings "defines" isDefine (clang.refuse fun shown => "invalid define " ++ shown)
  operations := clangOperations
  plan := fun t task => do
    let entries ← (partsOf task.settings "include_dirs").mapError fun b => Refusal.failed (.breach b)
    let directories ← (entries.mapM (includeDirectory t task)).mapError Refusal.failed
    (operate clangOperations task.settings).mapError fun b => Refusal.failed (.breach b)
    return { invocations := task.files.mapIdx (clangInvocation task (clangArguments task directories)) }

/-- A value that is a text. -/
def isText : Datum → Bool
  | .text _ => true
  | _ => false

/-- The arguments for the program are texts. -/
def valgrindUsage : Usage where
  analyzer := valgrind
  check := fun settings => checkParts settings "args" isText
    fun _ => .error (valgrind.refusal "args must be strings")
  operations := [("executable", .test), ("executable", .locate), ("args", .writeParts)]

/-- The number of jobs is compared with its bounds. -/
def checkJobs (settings : ToolSettings) : Except Failure Unit :=
  checkGiven settings "jobs"
    (fun d => (Number.ofDatum d).map fun n => (Number.whole 0).atMost n && n.atMost (.whole 64))
    fun _ => .error (pylint.refusal "jobs must be between 0 and 64")

/-- The complaint about one entry of an option. -/
def entryRefusal (a : Analyzer) (name : String) : Datum → Except Failure Unit :=
  a.refuse fun shown => "invalid entry " ++ shown ++ " in " ++ Text.quoted name

/-- The entries of both lists are codes or names of messages. -/
def pylintUsage : Usage where
  analyzer := pylint
  check := fun settings => do
    checkParts settings "disable" (isTextWith isPylintMessage) (pylint.entryRefusal "disable")
    checkParts settings "enable" (isTextWith isPylintMessage) (pylint.entryRefusal "enable")
    checkJobs settings
  operations := [("disable", .takeTexts), ("enable", .test), ("enable", .takeTexts), ("jobs", .write)]

/-- The version is matched with a pattern, and so are the entries of both lists. -/
def mypyUsage : Usage where
  analyzer := mypy
  check := fun settings => do
    checkGiven settings "python_version" (fun d => d.asText.map Readers.isThirdVersion)
      (mypy.refuse fun shown => "invalid python_version " ++ shown)
    checkParts settings "disable_error_codes" (isTextWith Readers.isMessageName)
      (mypy.entryRefusal "disable_error_codes")
    checkParts settings "enable_error_codes" (isTextWith Readers.isMessageName)
      (mypy.entryRefusal "enable_error_codes")
  operations := [("python_version", .test), ("python_version", .write), ("strict", .test),
    ("disable_error_codes", .takeTexts), ("enable_error_codes", .takeTexts)]

/-- What the tools of the library do with their options. -/
def usages : List Usage :=
  [{ analyzer := clippy, operations := [("all_targets", .test), ("all_features", .test)] },
    { analyzer := cargoAudit, operations := [("no_fetch", .test), ("stale", .test)] },
    gosecUsage,
    { analyzer := staticcheck, operations := [("unused_only", .test)] },
    clangUsage, valgrindUsage, pylintUsage, mypyUsage]

/-- All tools of the library are described, and no others. -/
theorem analyzer_usages : usages.map (·.analyzer) = standard := rfl

end Analyzer

end Assay

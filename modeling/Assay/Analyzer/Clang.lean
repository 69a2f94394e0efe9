import Assay.Analyzer.Toolchain
import Assay.Readers.Clang
import Assay.Text.Classes

/-!
# The Clang analyzer

Every source is read on its own and gets a report of its own; a source that does not compile leaves none.
-/

namespace Assay.Analyzer

open Files

/-- The endings of headers, which are not read on their own. -/
def headerExtensions : List String := [".h", ".hh", ".hpp", ".hxx"]

/-- The checkers that the analyzer runs. -/
def clangCheckers : String := "core,deadcode,security,unix,cplusplus"

/-- The language standards that may be asked for. -/
def languageStandards : List String :=
  ["c89", "c99", "c11", "c17", "c2x", "gnu99", "gnu11", "gnu17", "c++11", "c++14", "c++17", "c++20",
    "c++23"]

/-- The complaint about a language standard. -/
def standardComplaint (settings : ToolSettings) (name : String) : Option String :=
  match settingText? settings name with
  | some s =>
    if languageStandards.contains s then none
    else some ("unsupported " ++ name ++ " " ++ Text.quoted s)
  | none => none

/-- A definition for the preprocessor: letters and digits of any script, underscores and equals
signs. -/
def isDefine : Datum → Bool
  | .text s =>
    let core := s.toList.filter fun c => c != '_' && c != '='
    !core.isEmpty && core.all Text.isAlphanumeric
  | _ => false

/-- The complaint about the definitions. -/
def defineComplaint (settings : ToolSettings) : Option String :=
  ((settingItems settings "defines").find? fun d => !isDefine d).map fun d =>
    "invalid define " ++ d.shown

/-- The complaint about the options of the Clang analyzer. -/
def clangComplaint (settings : ToolSettings) : Option String :=
  ((standardComplaint settings "std_c").or (standardComplaint settings "std_cpp")).or
    (defineComplaint settings)

/-- The directories to include from, each below the project. -/
def includeDirectories (t : Tree) (task : Task) : Except Failure (List Path) :=
  (settingItems task.settings "include_dirs").mapM fun d =>
    checkOptionPath t task .directory d.display

/-- The arguments that all sources share. -/
def clangArguments (task : Task) (directories : List Path) : List String :=
  ["--analyze", "--analyzer-output=plist-multi-file", "-Xanalyzer",
    "-analyzer-checker=" ++ clangCheckers, "-w"] ++
    directories.map (fun d => "-I" ++ d.toString) ++
    (settingItems task.settings "defines").map fun d => "-D" ++ d.display

/-- The language standard that a source is read by. -/
def standardFor (task : Task) (source : Path) : String :=
  if Language.ofPath? source == some .cpp then (settingText? task.settings "std_cpp").getD "c++17"
  else (settingText? task.settings "std_c").getD "c11"

/-- The name of the report on the source with a number: five digits or more. -/
def reportName (index : Nat) : String :=
  let digits := Decimal.natText index
  String.ofList (List.replicate (5 - digits.length) '0') ++ digits ++ ".plist"

/-- The command for the source with a number. -/
def clangInvocation (task : Task) (shared : List String) (index : Nat) (source : Path) :
    Invocation :=
  let report := task.scratch.child (reportName index)
  { arguments := shared ++ ["-std=" ++ standardFor task source, "-o", report.toString,
      source.toString]
    workingDirectory := task.toolRoot
    reportFile := some report
    files := [source] }

/-- The commands for all sources. -/
def clangPlan (t : Tree) (task : Task) : Except Refusal Plan :=
  match includeDirectories t task with
  | .error f => .error (.failed f)
  | .ok directories =>
    .ok { invocations := task.files.mapIdx (clangInvocation task (clangArguments task directories)) }

/-- The warning about a source without a report. -/
def clangUnread (output : Output) : String :=
  let source := match output.invocation.files with
    | file :: _ => file.name
    | [] => "input"
  "clang could not analyse " ++ source ++ " (exit " ++ Decimal.intText output.exitCode ++ ")"

/-- The analyzer of Clang. -/
def clang : Analyzer where
  name := "clang-static-analyzer"
  languages := [.c, .cpp]
  category := "cpp_static_analysis"
  policy := { command := "clang" }
  install :=
    { steps := ["apt-get install clang", "brew install llvm"]
      requirements := ["clang 9 or newer with the static analyzer"]
      notes := "Each source file runs as its own clang invocation and batch_size is ignored; include paths come from the include_dirs option." }
  formats := ["plist"]
  takesFiles := true
  extensions := (extensionsOf [.c, .cpp]).filter fun e => !headerExtensions.contains e
  optionKinds :=
    [("std_c", .text), ("std_cpp", .text), ("include_dirs", .list), ("defines", .list)]
  minimumVersion := some "9.0.0"
  complaint := clangComplaint
  plan := clangPlan
  accepts := fun _ _ => true
  read := fun task output =>
    match output.report with
    | none => .ok { harvest := {}, unread := some (clangUnread output) }
    | some report => readReport (Readers.ofMarkup Readers.clang) task report
  reader := Readers.ofMarkup Readers.clang
  severities := Readers.Clang.severities

end Assay.Analyzer

import Assay.Analyzer.Arguments
import Assay.Analyzer.Toolchain
import Assay.Readers.Mypy

/-!
# Mypy

The type checker is given the modules of a project in batches, with a configuration of its own, and
follows no imports.
-/

namespace Assay.Analyzer

open Files

/-- How many sources mypy gets at once. -/
def mypyBatch : Nat := 20

/-- The complaint about the version of the language. -/
def versionComplaint (settings : ToolSettings) : Option String :=
  match settingText? settings "python_version" with
  | some s =>
    if Readers.isThirdVersion s then none else some ("invalid python_version " ++ Text.quoted s)
  | none => none

/-- The complaint about the options of mypy. -/
def mypyComplaint (settings : ToolSettings) : Option String :=
  ((versionComplaint settings).or
    (entryComplaint settings Readers.isMessageName "disable_error_codes")).or
    (entryComplaint settings Readers.isMessageName "enable_error_codes")

/-- The version of the language as a line of the configuration. -/
def versionLine (task : Task) : List String :=
  match (settingText? task.settings "python_version").getD "" with
  | "" => []
  | version => ["python_version = " ++ version]

/-- The configuration that mypy is given. -/
def mypyConfiguration (task : Task) : String :=
  Text.join "\n"
    (["[mypy]", "follow_imports = skip", "ignore_missing_imports = True",
      "check_untyped_defs = True", "warn_unreachable = True",
      "cache_dir = " ++ (task.scratch.child "mypy-cache").toString] ++ versionLine task) ++ "\n"

/-- The arguments for mypy before the sources. -/
def mypyArguments (task : Task) (configuration : Path) : List String :=
  ["--config-file", configuration.toString, "--show-error-codes", "--show-column-numbers",
    "--no-error-summary", "--no-color-output"] ++ argumentIf (task.isOn "strict") "--strict" ++
    flagged "--disable-error-code" (settingTexts task "disable_error_codes") ++
    flagged "--enable-error-code" (settingTexts task "enable_error_codes")

/-- The commands for all batches. -/
def mypyPlan (task : Task) : Plan :=
  let configuration := task.scratch.child "mypy.ini"
  { invocations := batchInvocations task (some mypyBatch) (mypyArguments task configuration)
    inputs := [(configuration, mypyConfiguration task)] }

/-- The type checker. -/
def mypy : Analyzer where
  name := "mypy"
  languages := [.python]
  category := "python_type_checking"
  policy :=
    { command := "mypy"
      inherited := pythonVariables
      overrides := [("PYTHONPATH", ""), ("PYTHONHOME", ""), ("PYTHONSTARTUP", ""), ("MYPYPATH", "")] }
  install :=
    { steps := ["python -m pip install mypy"]
      requirements := ["Python 3.9 or newer"]
      notes := "Imports are not followed, so third-party stubs are not required." }
  supportsIncremental := true
  defaultConfidence := .high
  markers := pythonMarkers
  takesFiles := true
  extensions := extensionsOf [.python]
  batchSize := some mypyBatch
  optionKinds :=
    [("strict", .flag), ("python_version", .text), ("disable_error_codes", .list),
      ("enable_error_codes", .list)]
  complaint := mypyComplaint
  plan := fun _ task => .ok (mypyPlan task)
  reader := Readers.ofTextLines Readers.mypy
  severities := Readers.Mypy.severities

end Assay.Analyzer

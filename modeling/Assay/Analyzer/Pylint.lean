import Assay.Analyzer.Arguments
import Assay.Analyzer.Toolchain
import Assay.Readers.Pylint

/-!
# Pylint

The linter is given the modules of a project in batches, with a configuration of its own, so that what
is installed or configured around the project changes nothing.
-/

namespace Assay.Analyzer

open Files

/-- How many sources pylint gets at once. -/
def pylintBatch : Nat := 10

/-- The checks that only make noise where the dependencies of a project are not installed. -/
def disabledChecks : List String := ["import-error", "no-member", "no-name-in-module"]

/-- The exit code that marks a wrong call; lower ones tell which kinds of messages there were. -/
def wrongCallCode : Int := 32

/-- The code or the symbolic name of a message. -/
def isPylintMessage (s : String) : Bool := Readers.isPylintCode s || Readers.isMessageName s

/-- The complaint about the number of jobs. -/
def jobsComplaint (settings : ToolSettings) : Option String :=
  match Datum.lookup "jobs" settings with
  | some (.int n) => if 0 ≤ n && n ≤ 64 then none else some "jobs must be between 0 and 64"
  | _ => none

/-- The complaint about the options of pylint. -/
def pylintComplaint (settings : ToolSettings) : Option String :=
  ((entryComplaint settings isPylintMessage "disable").or
    (entryComplaint settings isPylintMessage "enable")).or (jobsComplaint settings)

/-- The configuration that pylint is given. -/
def pylintConfiguration : String :=
  "[MAIN]\npersistent=no\n\n[MESSAGES CONTROL]\ndisable=" ++ Text.join "," disabledChecks ++ "\n"

/-- The messages that are switched off. -/
def disabledMessages (task : Task) : List String :=
  settingTexts task "disable" ++ task.options.excludeRules.filter Readers.isPylintCode

/-- The number of jobs as an argument. -/
def jobsArgument (task : Task) : List String :=
  match Datum.lookup "jobs" task.settings with
  | some (.int n) => ["--jobs=" ++ Decimal.intText n]
  | _ => []

/-- The arguments for pylint before the sources. -/
def pylintArguments (task : Task) (configuration : Path) : List String :=
  ["--rcfile", configuration.toString, "--output-format=json", "--score=n", "--persistent=n"] ++
    ruleFlag "--disable=" (disabledMessages task) ++
    ruleFlag "--enable=" (settingTexts task "enable") ++ jobsArgument task

/-- The commands for all batches. -/
def pylintPlan (task : Task) : Plan :=
  let configuration := task.scratch.child "pylintrc"
  { invocations := batchInvocations task (some pylintBatch) (pylintArguments task configuration)
    inputs := [(configuration, pylintConfiguration)] }

/-- The linter. -/
def pylint : Analyzer where
  name := "pylint"
  languages := [.python]
  category := "python_static_analysis"
  policy := { command := "pylint", inherited := pythonVariables }
  install :=
    { steps := ["python -m pip install pylint"]
      requirements := ["Python 3.9 or newer"]
      notes := "Import resolution checks are disabled; results do not depend on installed project dependencies." }
  markers := pythonMarkers
  takesFiles := true
  extensions := extensionsOf [.python]
  batchSize := some pylintBatch
  optionKinds := [("disable", .list), ("enable", .list), ("jobs", .whole)]
  complaint := pylintComplaint
  plan := fun _ task => .ok (pylintPlan task)
  accepts := fun output _ => output.exitCode < wrongCallCode
  reader := Readers.ofDocument Readers.pylint
  severities := Readers.Pylint.severities

end Assay.Analyzer

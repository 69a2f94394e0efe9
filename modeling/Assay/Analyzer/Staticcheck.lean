import Assay.Analyzer.Toolchain
import Assay.Readers.Staticcheck

/-!
# Staticcheck

The linter of Go modules. It is told which checks to make; rules that are no complete codes are left to
the filter after the run.
-/

namespace Assay.Analyzer

/-- The checks that staticcheck makes unless rules are included. -/
def standardChecks : List String := ["all", "-SA9003", "-ST1000"]

/-- The check for unused code. -/
def unusedCheck : String := "U1000"

/-- The checks that staticcheck is told to make: the complete codes among the rules, the excluded ones
after a minus sign. -/
def staticcheckChecks (task : Task) : List String :=
  if task.isOn "unused_only" then [unusedCheck]
  else
    let included := task.options.includeRules.filter Readers.isStaticcheckCode
    let excluded := task.options.excludeRules.filter Readers.isStaticcheckCode
    (if included.isEmpty then standardChecks else included) ++ excluded.map ("-" ++ ·)

/-- The arguments for staticcheck before the packages. -/
def staticcheckArguments (task : Task) : List String :=
  ["-f", "json", "-checks", Text.join "," (staticcheckChecks task)] ++
    argumentIf (!task.options.includeTests) "-tests=false"

/-- The linter. -/
def staticcheck : Analyzer where
  name := "staticcheck"
  languages := [.go]
  category := "go_static_analysis"
  policy := { command := "staticcheck", inherited := goVariables }
  install :=
    { steps := ["go install honnef.co/go/tools/cmd/staticcheck@latest"]
      requirements := ["Go toolchain matching the module's go directive"] }
  markers := goMarkers
  searchesParents := true
  extensions := extensionsOf [.go]
  optionKinds := [("unused_only", .flag)]
  versionArguments := ["-version"]
  plan := fun _ task => packagePlan task (staticcheckArguments task)
  reader := Readers.ofLines Readers.staticcheck

end Assay.Analyzer

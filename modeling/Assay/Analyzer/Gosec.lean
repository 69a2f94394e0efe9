import Assay.Analyzer.Toolchain
import Assay.Readers.Gosec
import Assay.Text.Case

/-!
# Gosec

The scanner for weaknesses in Go modules. Rules that are complete codes are handed to it.
-/

namespace Assay.Analyzer

/-- The levels of confidence that gosec takes. -/
def gosecConfidences : List String := ["low", "medium", "high"]

/-- The complaint about the options of gosec. -/
def gosecComplaint (settings : ToolSettings) : Option String :=
  match settingText? settings "confidence" with
  | some s =>
    if gosecConfidences.contains (Text.lower s) then none
    else some ("invalid confidence " ++ Text.quoted s)
  | none => none

/-- The arguments for gosec before the packages. -/
def gosecArguments (task : Task) : List String :=
  ["-fmt=json", "-sort", "-quiet"] ++
    ruleFlag "-include=" (task.options.includeRules.filter Readers.isGosecCode) ++
    ruleFlag "-exclude=" (task.options.excludeRules.filter Readers.isGosecCode) ++
    ((settingText? task.settings "confidence").map fun s => "-confidence=" ++ Text.lower s).toList ++
    argumentIf (task.isOn "exclude_generated") "-exclude-generated" ++
    argumentIf task.options.includeTests "-tests"

/-- The scanner for weaknesses. -/
def gosec : Analyzer where
  name := "gosec"
  languages := [.go]
  category := "go_security_analysis"
  policy := { command := "gosec", inherited := goVariables }
  install :=
    { steps := ["go install github.com/securego/gosec/v2/cmd/gosec@latest"]
      requirements := ["Go toolchain 1.20 or newer", "$GOPATH/bin on PATH"]
      notes := "gosec loads packages through the Go toolchain, so the module must resolve its dependencies." }
  markers := goMarkers
  searchesParents := true
  extensions := extensionsOf [.go]
  optionKinds := [("confidence", .text), ("exclude_generated", .flag)]
  versionArguments := ["-version"]
  complaint := gosecComplaint
  plan := fun _ task => packagePlan task (gosecArguments task)
  reader := Readers.ofDocument Readers.gosec
  severities := Readers.Gosec.severities

end Assay.Analyzer

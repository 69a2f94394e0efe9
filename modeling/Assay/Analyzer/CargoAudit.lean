import Assay.Analyzer.Arguments
import Assay.Analyzer.Toolchain
import Assay.Readers.CargoAudit

/-!
# Cargo-audit

The auditor of lock files, run where the lock file lies. Rules that name an advisory are handed to it.
-/

namespace Assay.Analyzer

/-- The advisories that cargo-audit can be told to ignore. -/
def advisoryRules (rules : List String) : List String := rules.filter Readers.isAdvisoryId

/-- The arguments for cargo-audit. -/
def cargoAuditArguments (task : Task) : List String :=
  ["--json", "--file", (task.toolRoot.child "Cargo.lock").toString] ++
    argumentIf (task.isOn "no_fetch") "--no-fetch" ++ argumentIf (task.isOn "stale") "--stale" ++
    flagged "--ignore" (advisoryRules task.options.excludeRules)

/-- The auditor of lock files. -/
def cargoAudit : Analyzer where
  name := "cargo-audit"
  languages := [.rust]
  category := "rust_dependency_audit"
  policy := { command := "cargo", fixedArguments := ["audit"], inherited := cargoVariables }
  install :=
    { steps := ["cargo install cargo-audit --locked"]
      requirements := ["Rust toolchain", "network access to fetch the RustSec advisory database"]
      notes := "Findings point at Cargo.lock line 1; lockfiles carry no per-package line numbers." }
  defaultConfidence := .high
  markers := ["Cargo.lock"]
  searchesParents := true
  extensions := extensionsOf [.rust]
  optionKinds := [("no_fetch", .flag), ("stale", .flag)]
  plan := fun _ task => .ok (onePlan task (cargoAuditArguments task))
  reader := Readers.ofDocument Readers.cargoAudit
  severities := Readers.CargoAudit.severities

end Assay.Analyzer

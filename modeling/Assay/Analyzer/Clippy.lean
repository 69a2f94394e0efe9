import Assay.Analyzer.Arguments
import Assay.Analyzer.Toolchain
import Assay.Readers.Clippy

/-!
# Clippy

The linter of cargo, run at the root of a crate. Rules that name a lint are handed to it.
-/

namespace Assay.Analyzer

/-- The rules that clippy can be told of by name. -/
def lintRules (rules : List String) : List String :=
  rules.filter fun rule => (Readers.clippyLint? rule).isSome

/-- All targets are linted: as the option says, or if tests are included. -/
def lintsAllTargets (task : Task) : Bool :=
  match Datum.lookup "all_targets" task.settings with
  | some d => d.isTruthy
  | none => task.options.includeTests

/-- The arguments for clippy. -/
def clippyArguments (task : Task) : List String :=
  ["--message-format=json"] ++ argumentIf (lintsAllTargets task) "--all-targets" ++
    argumentIf (task.isOn "all_features") "--all-features" ++ ["--", "-W", "clippy::all"] ++
    flagged "-W" (lintRules task.options.includeRules) ++
    flagged "-A" (lintRules task.options.excludeRules)

/-- The linter of cargo. -/
def clippy : Analyzer where
  name := "clippy"
  languages := [.rust]
  category := "rust_static_analysis"
  policy := { command := "cargo", fixedArguments := ["clippy"], inherited := cargoVariables }
  install :=
    { steps := ["rustup component add clippy"]
      requirements := ["rustup-managed Rust toolchain"]
      notes := "clippy compiles the crate, so build dependencies must be fetchable." }
  requiresBuild := true
  supportsIncremental := true
  markers := ["Cargo.toml"]
  searchesParents := true
  extensions := extensionsOf [.rust]
  optionKinds := [("all_targets", .flag), ("all_features", .flag)]
  plan := fun _ task => .ok (onePlan task (clippyArguments task))
  reader := Readers.ofLines Readers.clippy

end Assay.Analyzer

import Assay.Proofs.Configuration
import Assay.Proofs.Detection
import Assay.Proofs.Files.Root
import Assay.Proofs.Schedule
import Assay.Proofs.Schema.Settings
import Assay.Proofs.Survey
import Assay.Proofs.Totals
import Assay.Scan

/-!
# How a scan ends

A scan is planned before the first tool starts: its root, its options, the tools that it names and their
settings are settled one after another (`plan_settles`). If it can be carried out as it is asked for, it
ends with its report, and its exit code says whether some issue in it is grave; if not, it is refused with
a code of its own (`runCommandLine_scan`). What is looked at and read for that has to lead somewhere
(`Foreseen`), and there is one fault that is not refused: the malformed name of a tool on the command line
(`runCommandLine_malformed_name`).
-/

namespace Assay

open Files Files.Tree CommandLine

/-! ## Arguments -/

namespace CommandLine.ScanRequest

/-- The text of the path of the project. -/
def root (r : ScanRequest) : String := (Path.ofString r.project).toString

/-- What is said beside the configuration. -/
def said (r : ScanRequest) : Overrides where
  toolSelection := if r.tools.isEmpty then none else some r.tools
  timeoutMs := r.timeoutMs.map Int.toNat
  workers := r.workers

variable {r : ScanRequest}

/-- What a scan makes of options is what `withOverrides` makes of them. A fault in what is said is a breach. -/
theorem map_overrides {parallelism : Nat} {o : AnalysisOptions} (h : ∀ language, (o.block language).Valid) :
    r.overrides.map o.overriddenBy =
      match o.withOverrides parallelism (if r.tools.isEmpty then .null else Schema.writtenTexts r.tools)
        ((r.timeoutMs.map Datum.int).getD .null) r.workers with
      | .good overridden => .ok overridden
      | .bad faults => .error (.breach (.invalid (Schema.faultsText faults))) := by
  rw [AnalysisOptions.withOverrides_eq h, overrides, Schema.writtenTexts]
  cases Overrides.read _ _ r.workers <;> rfl

/-! ## Preparations -/

variable {σ : Type} {host : Sandbox.Host σ}

/-- What carries out scans on a host. -/
def scanner (host : Sandbox.Host σ) : Surveyor σ := { runner := host.toRunner }

/-- Everything about a scan that is settled before the first tool starts. -/
def plan (r : ScanRequest) (host : Sandbox.Host σ) (parallelism : Nat) (t : Tree) :
    Except Failure Surveyor.Survey := do
  let root ← t.checkProjectRoot r.root
  let o ← r.options parallelism t root
  (scanner host).prepare t (.ok o) root.toString

/-- The project has a root, and options that the scan begins with. -/
def Begins (r : ScanRequest) (parallelism : Nat) (t : Tree) (root : Path) (o : AnalysisOptions) : Prop :=
  (∃ place, Path.rooted place = root ∧ t.IsProjectRoot r.root place) ∧
    AnalysisOptions.Configured parallelism t root r.configuration o

/-- A survey can be carried out: the tools that its options name exist, and those that run for the
languages of the project take their settings. -/
structure Surveys (t : Tree) (found : Surveyor.Survey) : Prop where
  known : Registry.standard.Knows found.options
  languages : Language.detect t found.root found.options.limits.maxDepth = .ok found.languages
  suits : Registry.standard.Suits found.options [] found.languages
  schedule : Registry.standard.schedule found.options found.languages = .ok found.schedule

/-- A scan can be carried out as it is asked for: it has a root and options to begin with, no name of a
tool is malformed, and the survey can be carried out. -/
structure Accepts (r : ScanRequest) (parallelism : Nat) (t : Tree) (found : Surveyor.Survey) : Prop where
  begins : ∃ o, r.Begins parallelism t found.root o ∧ o.overriddenBy r.said = found.options
  named : ∀ name ∈ r.tools, isToolName name = true
  surveys : Surveys t found

variable {parallelism : Nat} {t : Tree}

variable {s : σ}

/-- The options of a scan that only names its tools. -/
def optionsOf (r : ScanRequest) : AnalysisOptions :=
  (AnalysisOptions.standard (defaultParallelism none)).overriddenBy r.said

end CommandLine.ScanRequest

end Assay

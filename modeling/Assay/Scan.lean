import Assay.CommandLine.Request
import Assay.Configuration
import Assay.Files.Snapshot
import Assay.Json.Writer
import Assay.Sandbox.Execution
import Assay.Schema.Reports
import Assay.Survey

/-!
# Scans

A scan surveys a project as a command line asks for it, and ends with an exit code: 2 if the input was
at fault, 1 if something grave was found, and 0 otherwise. What no report is made of, a breach, ends
with 1 as well, but without a report. The host is whatever holds the files and starts the tools.
-/

namespace Assay

open Files CommandLine

/-- How a command came to its end. -/
structure Ending where
  exitCode : Nat
  /-- What it printed. -/
  printed : Option String := none
  /-- Why it did not do what was asked for. -/
  complaint : Option String := none
  /-- The files after it. -/
  tree : Tree

namespace Ending

/-- The exit code of a request that cannot be met as it stands. -/
def inputFault : Nat := 2

/-- The exit code of a command that broke off. -/
def brokenOff : Nat := 1

end Ending

/-- What is said on the command line beside the configuration. -/
def CommandLine.ScanRequest.overrides (r : ScanRequest) : Except Failure Overrides :=
  let tools := if r.tools.isEmpty then Datum.null else .list (r.tools.map Datum.text)
  let timeout := (r.timeoutMs.map Datum.int).getD .null
  match Overrides.read tools timeout r.workers with
  | .good u => .ok u
  | .bad faults => .error (.breach (.invalid (Schema.faultsText faults)))

/-- The options of a scan: those of the configuration, and what the command line says beside it. -/
def CommandLine.ScanRequest.options (r : ScanRequest) (parallelism : Nat) (t : Tree) (root : Path) :
    Except Failure AnalysisOptions := do
  let o ← match r.configuration with
    | some p => AnalysisOptions.load parallelism t (Path.ofString p)
    | none => AnalysisOptions.discover parallelism t root
  return o.overriddenBy (← r.overrides)

variable {σ : Type}

/-- The report of a scan, and the surroundings after it. -/
def CommandLine.ScanRequest.report (r : ScanRequest) (host : Sandbox.Host σ) (parallelism : Nat) (s : σ) :
    Except Failure RunReport × σ :=
  let project := (Path.ofString r.project).toString
  match (host.tree s).checkProjectRoot project with
  | .error f => (.error f, s)
  | .ok root =>
    match r.options parallelism (host.tree s) root with
    | .error f => (.error f, s)
    | .ok options =>
      let surveyor : Surveyor σ := { runner := host.toRunner }
      let (found, _, s) := surveyor.survey (host.tree s) (.ok options) root.toString s
      (found, s)

/-- Puts a text into a file; `none` if the file cannot be written. -/
def Files.Tree.deliver? (t : Tree) (p : Path) (text : String) : Option Tree :=
  let place := t.realPath p
  let above : Path := ⟨place.anchor, place.parts.dropLast⟩
  if t.isDirectory place || !t.isDirectory above then none else some (t.write place text)

/-- Hands over the report of a scan: into the file that was asked for, or in print. -/
def CommandLine.ScanRequest.deliver (r : ScanRequest) (report : RunReport) (t : Tree) : Ending :=
  let text := Json.pretty 2 report.write ++ "\n"
  match r.output with
  | none => { exitCode := report.exitCode, printed := some text, tree := t }
  | some p =>
    match t.deliver? (Path.ofString p) text with
    | some t => { exitCode := report.exitCode, tree := t }
    | none =>
      { exitCode := Ending.brokenOff, complaint := some ("cannot write " ++ p), tree := t }

/-- Carries out a scan. -/
def CommandLine.ScanRequest.run (r : ScanRequest) (host : Sandbox.Host σ) (parallelism : Nat) (s : σ) : Ending :=
  match r.report host parallelism s with
  | (.ok report, s) => r.deliver report (host.tree s)
  | (.error (.problem p), s) =>
    { exitCode := if p.isInput then Ending.inputFault else Ending.brokenOff
      complaint := some p.message, tree := host.tree s }
  | (.error (.breach b), s) =>
    { exitCode := Ending.brokenOff, complaint := some b.message, tree := host.tree s }

/-- Carries out what a command line asks for. -/
def runCommandLine (host : Sandbox.Host σ) (arguments : List String) (parallelism : Nat) (s : σ) : Ending :=
  match Request.ofArguments arguments with
  | .error f => { exitCode := Ending.inputFault, complaint := some f.message, tree := host.tree s }
  | .ok .help | .ok .tools => { exitCode := 0, tree := host.tree s }
  | .ok (.scan r) => r.run host parallelism s

/-- The system that a document describes: its files by their paths, the environment, and the directory
in which commands are given. -/
def Sandbox.System.ofDatum (d : Datum) : Sandbox.System :=
  let here := match d.get "directory" with
    | .text s => Path.partsOf s
    | _ => []
  let environment := match d.get "environment" with
    | .table es => es.filterMap fun (name, v) => match v with
      | .text s => some (name, s)
      | _ => none
    | _ => []
  let home := (environment.lookup "HOME").getD "/root"
  { tree := (Tree.bareSystem here home).unpack here (Snapshot.ofDatum (d.get "files")), environment }

end Assay

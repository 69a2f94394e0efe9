import Assay.Analyzer.Arguments
import Assay.Analyzer.Basic

/-!
# What tools share

Tools for one language share the variables and the project files of its toolchain. Beyond that, some write
reports of their own, and some look at the packages of a module.
-/

/-!
## Toolchains

What the tools for a language share: the variables that its toolchain needs, and the files that mark a
project.
-/

namespace Assay.Analyzer

/-- The variables that cargo needs. -/
def cargoVariables : List String := ["HOME", "CARGO_HOME", "RUSTUP_HOME", "RUSTUP_TOOLCHAIN"]

/-- The variables that the toolchain of Go needs. -/
def goVariables : List String := ["HOME", "GOPATH", "GOROOT", "GOCACHE", "GOMODCACHE", "GOFLAGS"]

/-- The file that marks a module. -/
def goMarkers : List String := ["go.mod"]

/-- The variables that the interpreter needs. -/
def pythonVariables : List String := ["HOME", "VIRTUAL_ENV"]

/-- The files that mark a project. -/
def pythonMarkers : List String := ["pyproject.toml", "requirements.txt", "setup.cfg", "setup.py"]

/-!
## Tools that write reports

Tools for C and C++ write their report to a file, and their findings belong to the language of the file
that they point at. Paths among their options have to lie in the project.
-/

open Files

/-- The finding with the language of its file, or else of the run. -/
def stamped (language : Language) (raw : RawIssue) : RawIssue :=
  match raw.file with
  | none => raw
  | some file =>
    { raw with
      ecosystem := some ((Language.ofPath? (Path.ofString file) (some language)).getD language).name }

/-- The harvest with every finding stamped. -/
def stampedHarvest (language : Language) (h : Readers.Harvest) : Readers.Harvest :=
  { h with issues := h.issues.map (stamped language) }

/-- Reads a report with findings stamped by language. -/
def readReport (reader : Readers.Reader) (task : Task) (report : String) : Except Failure Reading :=
  (reader task.toolRoot report).map fun h => { harvest := stampedHarvest task.language h }

/-- A path given by an option, taken from the root of the project. -/
def optionPath (task : Task) (raw : String) : Path := task.projectRoot / Path.ofString raw

/-- A path given by an option, which has to lie in the project. -/
def checkOptionPath (t : Tree) (task : Task) (kind : PathKind) (raw : String) :
    Except Failure Path :=
  (t.checkPath (optionPath task raw).toString
    { kind, root := some task.projectRoot, denied := [] }).map (·.canonical)

/-!
## Packages of a module

A tool for Go runs at the root of the module and is told which packages to look at: those below the
project.
-/

/-- The pattern for all packages below some directories of a module. -/
def packagesBelow (parts : List String) : String :=
  if parts.isEmpty then "./..." else "./" ++ Path.relativeText parts ++ "/..."

/-- The breach of a project that does not lie in the module it was found in. -/
def outsideModule (task : Task) : Failure :=
  .breach (.badValue (Text.quoted task.projectRoot.toString ++ " is not in the subpath of " ++
    Text.quoted task.toolRoot.toString ++
    " OR one path is relative and the other is absolute."))

/-- The pattern for the packages of the project, seen from the root of the module. -/
def packagePattern (task : Task) : Except Failure String :=
  match task.projectRoot.relativeTo? task.toolRoot with
  | some parts => .ok (packagesBelow parts)
  | none => .error (outsideModule task)

/-- A plan with one command that ends in the pattern for packages. -/
def packagePlan (task : Task) (arguments : List String) : Except Refusal Plan :=
  match packagePattern task with
  | .ok pattern => .ok (onePlan task (arguments ++ [pattern]))
  | .error f => .error (.failed f)

end Assay.Analyzer

import Assay.Schema.Settings
import Assay.Files.Guard
import Assay.Toml.Document

/-!
# Configuration files

Options come from a file of their own, or from a section of the file in which a project describes
itself; the former wins. A file that is not there says nothing, unless it was asked for by its path.
-/

namespace Assay

open Files

namespace Configuration

/-- The name of a configuration file of its own. -/
def fileName : String := "polyaudit.toml"

/-- The file in which a project describes itself. -/
def projectFileName : String := "pyproject.toml"

/-- Where the options stand in the file of a project. -/
def tablePath : List String := ["tool", "polyaudit"]

/-- The problem of a file that cannot be read. -/
def unreadable (p : Path) : Failure := Failure.of .unknownOption ("cannot read " ++ p.toString)

/-- What a file says; nothing if it is not there. A path that cannot be looked at and bytes that are no text are
breaches. -/
def document (t : Tree) (p : Path) : Except Failure Datum :=
  match t.stat p with
  | .error .nameTooLong => .error (.breach .fileSystem)
  | .ok (.file content _) =>
    match content.text?.map Toml.read? with
    | none => .error (.breach .undecodable)
    | some (.ok d) => .ok d
    | some (.error .invalid) => .error (unreadable p)
    | some (.error .tooDeep) => .error (.breach .tooDeep)
    | some (.error (.tooLong digits)) => .error (.breach (.badValue (Json.Cause.tooLong digits).text))
  | _ => .ok (.table [])

/-- What the file of a project says in the section for options. -/
def sectionOf (d : Datum) : Datum :=
  match d.dig tablePath with
  | .table entries => .table entries
  | _ => .table []

/-- What a file says about options. -/
def ofFile (t : Tree) (p : Path) : Except Failure Datum := do
  let d ← document t p
  return if p.name == projectFileName then sectionOf d else d

end Configuration

namespace AnalysisOptions

/-- The options in the file at a path. -/
def load (parallelism : Nat) (t : Tree) (p : Path) : Except Failure AnalysisOptions := do
  if !(← Tree.looked (t.isFile? p)) then
    throw (Failure.of .unknownOption ("configuration file " ++ p.toString ++ " does not exist"))
  ofConfiguration parallelism (← Configuration.ofFile t p)

/-- The options of the project at a root. -/
def discover (parallelism : Nat) (t : Tree) (root : Path) : Except Failure AnalysisOptions := do
  let own := root.child Configuration.fileName
  if ← Tree.looked (t.isFile? own) then load parallelism t own
  else ofConfiguration parallelism (← Configuration.ofFile t (root.child Configuration.projectFileName))

end AnalysisOptions

end Assay

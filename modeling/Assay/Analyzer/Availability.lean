import Assay.Problem
import Assay.Text.Split

/-!
# Availability

Whether a tool can be used, and in which version. A tool that cannot be used fails its run with the
problem that was found.
-/

namespace Assay

/-- What was found out about a tool. -/
structure Availability where
  available : Bool
  version : Option String := none
  /-- The message of the problem, kind first. -/
  error : Option String := none
  errorKind : Option ProblemKind := none
deriving Repr, DecidableEq, Inhabited

namespace Availability

/-- The tool is not available because of a problem. -/
def ofProblem (p : Problem) (version : Option String) : Availability :=
  { available := false, version, error := some p.message, errorKind := some p.kind }

/-- The text without a start, if it has it. -/
def withoutStart (start s : String) : String :=
  match Text.dropStart? start.toList s.toList with
  | some rest => String.ofList rest
  | none => s

/-- The problem that keeps a tool from running; the message loses the name of its kind. -/
def problem? (a : Availability) (tool : String) : Option Problem :=
  if a.available then none
  else
    let kind := a.errorKind.getD .toolUnavailable
    let error := a.error.getD ""
    let detail := if error.isEmpty then tool ++ " is not available" else error
    some ⟨kind, withoutStart (kind.name ++ ": ") detail⟩

end Availability

end Assay

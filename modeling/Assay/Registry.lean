import Assay.Analyzer.CargoAudit
import Assay.Analyzer.Clang
import Assay.Analyzer.Clippy
import Assay.Analyzer.Gosec
import Assay.Analyzer.Mypy
import Assay.Analyzer.Pylint
import Assay.Analyzer.Staticcheck
import Assay.Analyzer.Valgrind

/-!
# Registries

A registry holds analyzers of different names in the order in which they were registered.
-/

/-!
## The tools of the library

All tools that the library knows, in the order in which they are registered and reported.
-/

namespace Assay.Analyzer

/-- The analyzers of the library. -/
def standard : List Analyzer :=
  [clippy, cargoAudit, gosec, staticcheck, clang, valgrind, pylint, mypy]

/-- The analyzer of a name. -/
def ofName? (name : String) : Option Analyzer := standard.find? fun a => a.name == name

end Assay.Analyzer

namespace Assay

/-- Analyzers in the order of their registration. -/
structure Registry where
  tools : List Analyzer := []

namespace Registry

/-- The names of the analyzers, in order. -/
def names (r : Registry) : List String := r.tools.map (·.name)

/-- The analyzer of a name. -/
def find? (r : Registry) (name : String) : Option Analyzer := r.tools.find? fun a => a.name == name

/-- An analyzer of the name is registered. -/
def contains (r : Registry) (name : String) : Bool := (r.find? name).isSome

/-- The analyzer of a name; it is a breach if there is none. -/
def get (r : Registry) (name : String) : Except Breach Analyzer :=
  match r.find? name with
  | some a => .ok a
  | none => .error (.missingKey name)

/-- The analyzers that serve a language, in order. -/
def serving (r : Registry) (l : Language) : List Analyzer :=
  r.tools.filter fun a => a.languages.contains l

/-- Registers an analyzer, unless its name is taken. -/
def register (r : Registry) (a : Analyzer) : Except Breach Registry :=
  if r.contains a.name then .error (.badValue ("Tool '" ++ a.name ++ "' already registered"))
  else .ok ⟨r.tools ++ [a]⟩

/-- The registry of some analyzers, registered one by one. -/
def ofList (tools : List Analyzer) : Except Breach Registry :=
  tools.foldlM (fun r a => r.register a) {}

/-- The registry of all analyzers of the library. -/
def standard : Registry := ⟨Analyzer.standard⟩

end Registry

end Assay

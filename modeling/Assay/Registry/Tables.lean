import Assay.Registry

/-!
# The tables of a registry

A registry is kept in two tables: the analyzers by their names, and for every language the names of the
analyzers that serve it. Registering writes to both of them, and the analyzers of a language are looked up in
one through the other.
-/

namespace Assay

/-- What a registry is kept in. -/
structure RegistryTables where
  /-- The analyzers by name, in the order in which the names came. -/
  byName : List (String × Analyzer) := []
  /-- The rows of the languages: the names of the analyzers that serve each. -/
  byLanguage : List (Language × List String) := []

namespace RegistryTables

/-- The names of the analyzers, in order. -/
def names (r : RegistryTables) : List String := r.byName.map (·.1)

/-- The analyzer of a name. -/
def find? (r : RegistryTables) (name : String) : Option Analyzer :=
  (r.byName.find? fun e => e.1 == name).map (·.2)

/-- An analyzer of the name is registered. -/
def contains (r : RegistryTables) (name : String) : Bool := (r.find? name).isSome

/-- The analyzer of a name; it is a breach if there is none. -/
def get (r : RegistryTables) (name : String) : Except Breach Analyzer :=
  match r.find? name with
  | some a => .ok a
  | none => .error (.missingKey name)

/-- The row of a language, empty if it has none. -/
def row (r : RegistryTables) (l : Language) : List String :=
  ((r.byLanguage.find? fun e => e.1 == l).map (·.2)).getD []

/-- The analyzers that serve a language: each name in its row is looked up. -/
def serving (r : RegistryTables) (l : Language) : Except Breach (List Analyzer) := (r.row l).mapM r.get

/-- The rows with a name added to that of a language, which is begun if there is none. -/
def addTo (l : Language) (name : String) : List (Language × List String) → List (Language × List String)
  | [] => [(l, [name])]
  | (k, row) :: rest => if k == l then (k, row ++ [name]) :: rest else (k, row) :: addTo l name rest

/-- Registers an analyzer and gives the tables after that. A name that is taken is refused before anything is
written. -/
def register (r : RegistryTables) (a : Analyzer) : Except Breach Unit × RegistryTables :=
  if r.contains a.name then (.error (.badValue ("Tool '" ++ a.name ++ "' already registered")), r)
  else
    (.ok (), {
      byName := r.byName ++ [(a.name, a)]
      byLanguage := a.languages.foldl (fun rows l => addTo l a.name rows) r.byLanguage })

/-- The tables of some analyzers, registered one by one; the first one that is refused ends it. -/
def ofList (tools : List Analyzer) : Except Breach RegistryTables :=
  tools.foldlM (fun r a => (r.register a).1.map fun _ => (r.register a).2) {}

end RegistryTables

end Assay

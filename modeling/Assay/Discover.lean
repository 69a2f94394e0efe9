import Assay.Language
import Assay.Problem

/-!
# Discovering sources

The sources of a project are the files with wanted endings that a walk from its root meets, each
checked like a path given by hand. The list is cut where the number of files or their total size
reaches its cap, and the cut is recorded.

`candidates` is the walk, `admitted` what passes the checks, `discover` the part of it that the caps
leave.
-/

/-!
## Byte budgets

A budget counts the bytes taken so far and refuses a charge that would exceed its limit. A refused
charge leaves the count as it was. The refusal names the limit, and breaks off if that cannot be written out.
-/

namespace Assay

/-- A budget of bytes; without a limit nothing is refused. -/
structure Budget where
  limit : Option Int
  used : Int := 0
deriving Repr, DecidableEq

/-- The budget after a charge. -/
def Budget.charge (b : Budget) (size : Int) : Except Failure Budget :=
  match b.limit with
  | some limit =>
    if b.used + size ≤ limit then .ok { b with used := b.used + size }
    else if Decimal.isWritable limit then
      .error (.problem ⟨.memoryCap, "aggregate input size would exceed " ++ Decimal.intText limit ++ " bytes"⟩)
    else .error (.breach Decimal.overlong)
  | none => .ok { b with used := b.used + size }

open Files

/-- What a discovery looks for and where it stops. -/
structure DiscoverOptions where
  /-- The wanted endings, in lower case. -/
  extensions : List String
  maxFiles : Int := 1000
  /-- The deepest directory entered, the root being at zero. -/
  maxDepth : Int := 32
  denied : List String := deniedNames
  maxFileBytes : Int := 10 * 1024 * 1024
  maxTotalBytes : Option Int := none
  includeTests : Bool := true
deriving Inhabited

/-- The endings of the names of test files. -/
def testEndings : List String := ["_test.go", "_test.py", "_test.rs", "_test.c", "_test.cpp"]

/-- The names of directories that hold tests. -/
def testDirectories : List String := ["tests", "test", "testdata"]

/-- A path whose components follow a common convention for tests. -/
def isTestPath (parts : List String) : Bool :=
  let name := parts.getLast?.getD ""
  Text.hasStart "test_" name || testEndings.any (Text.hasEnd · name) || name == "conftest.py" ||
    parts.dropLast.any testDirectories.contains

/-- Why a discovery was cut short: as many files as it may take have been found, or their bytes are too many. -/
inductive Cut where
  | files (limit : Int)
  | bytes (problem : Problem)
deriving Repr, DecidableEq

/-- The text of a cut. -/
def Cut.message : Cut → String
  | .files limit => ProblemKind.fileLimit.name ++ ": stopped after " ++ Decimal.intText limit ++ " files"
  | .bytes problem => problem.message

/-- What a discovery found. -/
structure Discovered where
  paths : List Path := []
  cut : Option Cut := none
  /-- How many files with a wanted ending were refused by the checks. -/
  skipped : Nat := 0
  totalBytes : Int := 0
deriving Inhabited

/-- The warnings of a discovery. -/
def Discovered.warnings (d : Discovered) : List String := (d.cut.map Cut.message).toList

/-- The selection that a discovery makes among the files below its root. -/
def DiscoverOptions.selects (o : DiscoverOptions) (root p : Path) : Bool :=
  o.extensions.contains (Text.lower p.suffix) &&
    (o.includeTests || !isTestPath (p.parts.drop root.parts.length))

/-- The files that a discovery considers, in the order of the walk. -/
def DiscoverOptions.candidates (o : DiscoverOptions) (t : Tree) (root : Path) : List Path :=
  (t.files ⟨o.maxDepth.toNat, Language.entersDirectory o.denied⟩ root).filter (o.selects root)

/-- The policy that every candidate is checked by. -/
def DiscoverOptions.policy (o : DiscoverOptions) (root : Path) : PathPolicy :=
  { kind := .file, maxFileBytes := some o.maxFileBytes, root := some root, denied := o.denied }

/-- Takes the candidates one by one until a cap is reached. -/
def DiscoverOptions.collect (o : DiscoverOptions) (check : Path → Except Failure CheckedPath) :
    Budget → Discovered → List Path → Except Failure Discovered
  | _, found, [] => .ok found
  | budget, found, p :: rest =>
    match check p with
    | .error (.problem problem) =>
      if problem.isInput then o.collect check budget { found with skipped := found.skipped + 1 } rest
      else .error (.problem problem)
    | .error f => .error f
    | .ok checked =>
      if o.maxFiles ≤ found.paths.length then .ok { found with cut := some (.files o.maxFiles) }
      else match budget.charge checked.size with
        | .error (.problem problem) => .ok { found with cut := some (.bytes problem) }
        | .error f => .error f
        | .ok budget =>
          o.collect check budget
            { found with paths := found.paths ++ [checked.canonical], totalBytes := budget.used } rest

/-- The sources below a root. -/
def DiscoverOptions.discover (o : DiscoverOptions) (t : Tree) (root : Path) :
    Except Failure Discovered := do
  if o.maxFiles ≤ 0 then return {}
  let root ← t.resolveOrFail root
  o.collect (fun p => t.checkPath p.toString (o.policy root)) ⟨o.maxTotalBytes, 0⟩ {}
    (o.candidates t root)

end Assay

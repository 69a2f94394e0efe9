import Assay.Files.Guard
import Assay.Files.Listing

/-!
# Languages

A project is written in the languages whose project files stand at its root or whose sources lie
somewhere below it. A file belongs to the language that owns its ending.
-/

namespace Assay

open Files

/-- The languages with at least one tool. -/
inductive Language where
  | rust
  | go
  | c
  | cpp
  | python
deriving Repr, DecidableEq, Inhabited

namespace Language

instance : Vocabulary Language where
  title := "Language"
  members := [rust, go, c, cpp, python]
  name
    | rust => "rust"
    | go => "go"
    | c => "c"
    | cpp => "cpp"
    | python => "python"

/-- All languages, in the order in which they are detected and reported. -/
def all : List Language := [rust, go, c, cpp, python]

/-- The name of a language, which also tags the findings in its files. -/
def name (l : Language) : String := Vocabulary.name l

/-- The files that mark a directory as the root of a project in the language. -/
def markers : Language → List String
  | rust => ["Cargo.toml"]
  | go => ["go.mod"]
  | python => ["pyproject.toml", "requirements.txt", "setup.py", "setup.cfg"]
  | c | cpp => []

/-- The endings of source files, in lower case. -/
def extensions : Language → List String
  | rust => [".rs"]
  | go => [".go"]
  | python => [".py", ".pyi"]
  | c => [".c", ".h"]
  | cpp => [".cpp", ".cc", ".cxx", ".c++", ".hpp", ".hh", ".hxx"]

/-- The language that owns the ending of a file name. -/
def ofSuffix? (suffix : String) : Option Language :=
  all.find? fun l => l.extensions.contains (Text.lower suffix)

/-- The language that owns a path, or `fallback`. -/
def ofPath? (p : Path) (fallback : Option Language := none) : Option Language :=
  match ofSuffix? p.suffix with
  | some l => some l
  | none => fallback

/-- Directories below a project are entered unless they are hidden or denied. -/
def entersDirectory (denied : List String) (name : String) : Bool :=
  !denied.contains name && !Text.hasStart "." name

/-- One of the names is that of a regular file directly in the root. A name that cannot be looked at
ends the search. -/
def anyFile (t : Tree) (root : Path) : List String → Except Breach Bool
  | [] => .ok false
  | name :: rest =>
    match t.isFile? (root.child name) with
    | .ok true => .ok true
    | .ok false => anyFile t root rest
    | .error _ => .error .fileSystem

/-- The languages among these that a marker stands for. -/
def marked (t : Tree) (root : Path) : List Language → Except Breach (List Language)
  | [] => .ok []
  | l :: rest => do
    let here ← anyFile t root l.markers
    let others ← marked t root rest
    return if here then l :: others else others

/-- A search for languages: every language is either found or still pending. -/
structure Search where
  found : List Language
  pending : List Language
  split : ∀ l, l ∈ pending ↔ l ∉ found

namespace Search

/-- The search before the first file, with the languages that are found already. -/
def start (found : List Language) : Search where
  found
  pending := all.filter fun l => !found.contains l
  split l := by
    have hall : l ∈ all := by cases l <;> decide
    simp [hall]

/-- A pending language is found. -/
def take (s : Search) (l : Language) : Search where
  found := s.found ++ [l]
  pending := s.pending.filter (· != l)
  split m := by simp [s.split]

/-- A file with this ending is met. Those languages are asked that were pending before. -/
def meet (s : Search) (suffix : String) : Search :=
  s.pending.foldl (fun s l => if l.extensions.contains suffix then s.take l else s) s

/-- A directory with files of these names is visited. -/
def visit (s : Search) (names : List String) : Search :=
  names.foldl (fun s name => s.meet (Text.lower (Path.suffixOf name))) s

/-- One directory is visited after the other, as long as some language is pending. -/
def run (s : Search) : List Visit → Search
  | [] => s
  | v :: rest => if s.pending.isEmpty then s else (s.visit v.names).run rest

end Search

/-- The languages that are found after the directories below a root have been searched, in order. The files
of the root itself are met whatever the depth. -/
def searched (t : Tree) (root : Path) (maxDepth : Int) (found : List Language) : List Language :=
  let visits := t.visits ⟨maxDepth.toNat, entersDirectory deniedNames⟩ root
  let search := (Search.start found).run visits
  all.filter search.found.contains

/-- The languages of the project at a root, in order. -/
def detect (t : Tree) (root : Path) (maxDepth : Int) : Except Breach (List Language) := do
  if root.parts.any fun c => c.toList.contains '\x00' then throw (.badValue "embedded null byte")
  let root ← t.resolve root
  let found ← marked t root all
  return searched t root maxDepth found

end Language

namespace Files.Tree

/-- Taken from the directory, the marker leads to a regular file. A marker with a NUL in it leads nowhere, and
one that cannot be looked at is a breach. -/
def isMarkedBy (t : Tree) (p : Path) (marker : String) : Except Breach Bool :=
  if marker.toList.contains '\x00' then .ok false
  else (t.isFile? (p / Path.ofString marker)).mapError fun _ => .fileSystem

/-- The first of the places that has a marker, no further than the limit. -/
def markerAmong (t : Tree) (markers : List String) (limit : Option Path) :
    List Path → Except Breach (Option Path)
  | [] => .ok none
  | p :: rest => do
    if ← markers.anyM (t.isMarkedBy p) then return some p
    else if limit == some p then return none
    else t.markerAmong markers limit rest

/-- A path and all directories above it, nearest first. -/
def ancestorsOf (p : Path) : List Path :=
  (List.range (p.parts.length + 1)).map fun n => ⟨p.anchor, p.parts.take (p.parts.length - n)⟩

/-- The resolution of a path whose text was not judged before. The operating system takes no NUL in it. -/
def resolveGiven (t : Tree) (p : Path) : Except Breach Path := do
  if p.parts.any fun c => c.toList.contains '\x00' then throw (.badValue "embedded null byte")
  t.resolve p

/-- The nearest directory at or above `start` that has a marker, not looked for above `boundary`. -/
def markerRoot (t : Tree) (start : Path) (markers : List String) (boundary : Option Path) :
    Except Breach (Option Path) := do
  let here ← t.resolveGiven start
  let limit ← boundary.mapM t.resolveGiven
  t.markerAmong markers limit (ancestorsOf here)

end Files.Tree

end Assay

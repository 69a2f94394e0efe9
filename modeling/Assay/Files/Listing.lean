import Assay.Files.Resolve

/-!
# Walking a tree

The files of a directory come before those of its subdirectories, and both are visited in the order of
their names, whatever order the directory lists them in. Links to directories are not entered and
count as directories, so they are no files. A directory whose path is too long to be looked at is passed
over. A walk starts from what a path leads to, and all that it meets is named after that path.
-/

namespace Assay.Files

/-- Names in ascending order of their characters. -/
def sortNames (names : List String) : List String := names.mergeSort fun a b => decide (a ≤ b)

/-- Which directories a walk enters: those at most this deep below its start, by their names. -/
structure WalkRule where
  maxDepth : Nat
  enters : String → Bool

namespace Tree

/-- The entry at a path counts as a directory: it is one, or a link that leads to one. -/
def countsAsDirectory (t : Tree) (p : Path) (n : Node) : Bool :=
  match n with
  | .directory _ => true
  | .file _ _ => false
  | .link _ => t.isDirectory p

/-- The names in a directory that are no directories, in order. -/
def fileNames (t : Tree) (here : Path) (entries : List (String × Node)) : List String :=
  sortNames ((entries.filter fun e => !t.countsAsDirectory (here.child e.1) e.2).map (·.1))

mutual

/-- The files below the node at the path `here`, `depth` levels below the start of the walk. -/
def filesBelow (t : Tree) (rule : WalkRule) (here : Path) (depth : Nat) : Node → List Path
  | .directory entries =>
    if maxPathBytes ≤ here.toString.utf8ByteSize then []
    else
      let own := (t.fileNames here entries).map here.child
      let below := if depth < rule.maxDepth then t.entriesBelow rule here (depth + 1) entries else []
      own ++ (below.mergeSort fun a b => decide (a.1 ≤ b.1)).flatMap (·.2)
  | _ => []

/-- For each entry that is entered, its name and the files below it. -/
def entriesBelow (t : Tree) (rule : WalkRule) (here : Path) (depth : Nat) :
    List (String × Node) → List (String × List Path)
  | [] => []
  | (name, n) :: rest =>
    let others := t.entriesBelow rule here depth rest
    if n.isDirectory && rule.enters name then
      (name, t.filesBelow rule (here.child name) depth n) :: others
    else others

end

/-- The files below what a path leads to, in the order of a walk. -/
def files (t : Tree) (rule : WalkRule) (start : Path) : List Path :=
  match t.stat start with
  | .ok n => t.filesBelow rule start 0 n
  | .error _ => []

end Tree

/-!
## Visiting directories

A search goes from directory to directory and takes each as it lists its entries. It enters the same
directories as a walk of the files, a directory before its subdirectories.
-/

/-- A directory on a search, with the names in it that are no directories. -/
structure Visit where
  directory : Path
  names : List String
deriving Repr, DecidableEq

namespace Tree

/-- The names in a directory that are no directories, as it lists them. -/
def listedNames (t : Tree) (here : Path) (entries : List (String × Node)) : List String :=
  (entries.filter fun e => !t.countsAsDirectory (here.child e.1) e.2).map (·.1)

mutual

/-- The visits from the node at the path `here`, `depth` levels below the start of the search. -/
def visitsBelow (t : Tree) (rule : WalkRule) (here : Path) (depth : Nat) : Node → List Visit
  | .directory entries =>
    if maxPathBytes ≤ here.toString.utf8ByteSize then []
    else
      let below := if depth < rule.maxDepth then t.entryVisits rule here (depth + 1) entries else []
      ⟨here, t.listedNames here entries⟩ :: below
  | _ => []

/-- The visits from the entries that are entered. -/
def entryVisits (t : Tree) (rule : WalkRule) (here : Path) (depth : Nat) :
    List (String × Node) → List Visit
  | [] => []
  | (name, n) :: rest =>
    let others := t.entryVisits rule here depth rest
    if n.isDirectory && rule.enters name then
      t.visitsBelow rule (here.child name) depth n ++ others
    else others

end

/-- The visits of a search from what a path leads to. -/
def visits (t : Tree) (rule : WalkRule) (start : Path) : List Visit :=
  match t.stat start with
  | .ok n => t.visitsBelow rule start 0 n
  | .error _ => []

end Tree

end Assay.Files

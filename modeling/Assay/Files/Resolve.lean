import Assay.Files.Tree
import Assay.Problem

/-!
# Resolving paths

The resolution of a path is the absolute path without links that leads to the same place. Components
that do not exist are kept as they stand. Links that lead back to themselves cannot be resolved: the
walk gives up at the first link met again while it is being resolved, and the rest is kept as written.
A rest that begins with slashes is a path of its own, so such a resolution can start at the double root.
-/

namespace Assay.Files

/-- What a walk has found out about a link: it is being resolved, or it leads to a path. -/
inductive LinkState where
  | pending
  | leadsTo (reached : Path)
deriving Repr, DecidableEq

/-- The links met on a walk, by the paths that they were met at. -/
abbrev Links := List (Path × LinkState)

/-- The place of a row of components that may hold dots, worked out on the names alone. -/
def normalize (parts : List String) : Place :=
  parts.foldl (fun acc p =>
    if p.isEmpty || p == "." then acc else if p == ".." then acc.dropLast else acc ++ [p]) []

/-- Where a walk has come to: the path so far, the links met, and whether it reached the end. -/
structure Walk where
  reached : Path
  links : Links
  finished : Bool

/-- The pieces `rest` taken from a path; a rest that begins with a slash starts anew. -/
def Path.thenRest (p : Path) (rest : List String) : Path := p / Path.ofPieces rest

/-- The path that the target of a link is walked from, the link being an entry of `here`. -/
def Path.targetStart (here : Path) (target : String) : Path :=
  if Text.hasStart "/" target then ⟨.root, []⟩ else here

namespace Tree

/-- The place that a path stands for, its dots worked out on the names alone. -/
def placeOf (t : Tree) (p : Path) : Place := normalize (t.startOf p ++ p.parts)

/-- The target of the link at a place, looked up by its absolute path. -/
def linkAt? (t : Tree) (place : Place) : Option String :=
  match t.find false (Path.rooted place) with
  | .ok found =>
    match t.top.at? found with
    | some (.link target) => some target
    | _ => none
  | .error _ => none

/-- Walks the pieces `rest` from the path `here`. The target of a link not met before is walked by
`follow`; a link counts as met only at the path that it was met at. -/
def walkLinks (t : Tree) (follow : Links → Path → List String → Walk) :
    Links → Path → List String → Walk
  | links, here, [] => ⟨here, links, true⟩
  | links, here, name :: rest =>
    if name.isEmpty || name == "." then walkLinks t follow links here rest
    else if name == ".." then walkLinks t follow links here.up rest
    else
      let next := here.child name
      match t.linkAt? (t.placeOf next) with
      | none => walkLinks t follow links next rest
      | some target =>
        match links.lookup next with
        | some (.leadsTo reached) => walkLinks t follow links reached rest
        | some .pending => ⟨next.thenRest rest, links, false⟩
        | none =>
          let walk :=
            follow ((next, .pending) :: links) (here.targetStart target) (Text.splitOn '/' target)
          if walk.finished then
            walkLinks t follow ((next, .leadsTo walk.reached) :: walk.links) walk.reached rest
          else ⟨walk.reached.thenRest rest, walk.links, false⟩

/-- Walks with links nested at most `depth` deep. -/
def walkDeep (t : Tree) : (depth : Nat) → Links → Path → List String → Walk
  | 0 => t.walkLinks fun links here rest => ⟨here.thenRest rest, links, false⟩
  | depth + 1 => t.walkLinks (t.walkDeep depth)

end Tree

mutual

/-- How many links a node holds. -/
def Node.countLinks : Node → Nat
  | .file _ _ => 0
  | .link _ => 1
  | .directory entries => Node.countEntryLinks entries

/-- How many links a row of entries holds. -/
def Node.countEntryLinks : List (String × Node) → Nat
  | [] => 0
  | (_, n) :: rest => n.countLinks + Node.countEntryLinks rest

end

namespace Tree

/-- A link can be met at its absolute path, and at a relative one for every directory above the working
directory: walks nest no deeper than there are such paths. -/
def walkDepth (t : Tree) : Nat := t.top.countLinks * (t.workingDirectory.length + 2) + 1

/-- The path from a root, its dots worked out on the names alone. -/
def absolute (t : Tree) (p : Path) : Path :=
  ⟨if p.isAbsolute then p.anchor else .root, t.placeOf p⟩

/-- The path that a path resolves to, loops kept as written. -/
def realPath (t : Tree) (p : Path) : Path :=
  t.absolute (t.walkDeep t.walkDepth [] p.origin p.parts).reached

/-- The resolution of a path; fails if it runs into a loop of links. -/
def resolve (t : Tree) (p : Path) : Except Breach Path :=
  let resolved := t.realPath p
  match t.stat resolved with
  | .error .loop => .error (.linkLoop resolved.toString)
  | _ => .ok resolved

/-- The path with a leading `~` or `~name` replaced by the home directory meant; `none` if there is
no such user. -/
def expandHome (t : Tree) (p : Path) : Option Path :=
  match p.anchor, p.parts with
  | .here, first :: rest =>
    match first.toList with
    | ['~'] => some (Path.ofString t.home / ⟨.here, rest⟩)
    | '~' :: user =>
      match t.homes.lookup (String.ofList user) with
      | some directory => some (Path.ofString directory / ⟨.here, rest⟩)
      | none => none
    | _ => some p
  | _, _ => some p

end Tree

end Assay.Files

import Assay.Files.Tree

/-!
# Sound trees

The trees that a file system can hold: the names of a directory are distinct and can be written as one
component of a path, and no text in it holds a NUL.
-/

namespace Assay.Files

/-- A name that an entry of a directory can have. -/
def isEntryName (s : String) : Bool :=
  !s.isEmpty && s != "." && s != ".." && !s.toList.contains '/' && !s.toList.contains '\x00' &&
    decide (s.utf8ByteSize ≤ Tree.maxNameBytes)

mutual

/-- A node that a file system can hold. -/
def Node.isSound : Node → Bool
  | .file _ _ => true
  | .link target => !target.toList.contains '\x00'
  | .directory entries => decide (entries.map (·.1)).Nodup && Node.areSound entries

/-- Entries that a directory can have, their names not compared. -/
def Node.areSound : List (String × Node) → Bool
  | [] => true
  | (name, n) :: rest => isEntryName name && n.isSound && Node.areSound rest

end

/-- A tree that a file system can hold, with a working directory in it. -/
structure Tree.IsSound (t : Tree) : Prop where
  top : t.top.isSound = true
  workingDirectory : (t.top.at? t.workingDirectory).any Node.isDirectory = true
  home : '\x00' ∉ t.home.toList
  homes : ∀ h ∈ t.homes, '\x00' ∉ h.2.toList

/-- The target of a link. -/
def Node.target? : Node → Option String
  | .link target => some target
  | _ => none

/-- The target of the link at a place, if one is there. -/
def Tree.target? (t : Tree) (place : Place) : Option String :=
  (t.top.at? place).bind Node.target?

/-- No link stands at the place or on the way to it. -/
def Tree.LinkFree (t : Tree) (place : Place) : Prop := ∀ before, before <+: place → t.target? before = none

/-- No link stands at the path or on the way to it, which starts at the plain root. -/
def Tree.IsDirect (t : Tree) (p : Path) : Prop := p.anchor = .root ∧ t.LinkFree p.parts

/-- The path is short enough to be looked at. -/
def Path.Fits (p : Path) : Prop := p.toString.utf8ByteSize < Tree.maxPathBytes

/-- The path to a place is short enough to be looked at. -/
def Tree.Fits (place : Place) : Prop := (Path.rooted place).Fits

instance : DecidablePred Path.Fits := fun _ => inferInstanceAs (Decidable (_ < _))

instance : DecidablePred Tree.Fits := fun _ => inferInstanceAs (Decidable (Path.Fits _))

end Assay.Files

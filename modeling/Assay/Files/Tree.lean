import Assay.Files.Path
import Assay.Text.Utf8

/-!
# File trees

A file tree is a value: directories with entries in no particular order, regular files, and symbolic
links that hold the text of their target. Asking for a path follows links as an operating system does,
and may fail.
-/

namespace Assay.Files

/-- What a regular file holds: a text, bytes that need not be one, or a number of filler bytes. -/
inductive Content where
  | text (s : String)
  | bytes (bs : List UInt8)
  | filler (size : Nat)
deriving Repr, DecidableEq, Inhabited

/-- The size in bytes. -/
def Content.size : Content → Nat
  | .text s => s.utf8ByteSize
  | .bytes bs => bs.length
  | .filler n => n

/-- The content as a text, in which bytes that are no character are replaced. -/
def Content.toText : Content → String
  | .text s => s
  | .bytes bs => Text.Utf8.decode bs
  | .filler n => String.ofList (List.replicate n 'x')

/-- The content as a text, if its bytes are one. -/
def Content.text? : Content → Option String
  | .bytes bs => String.fromUTF8? ⟨bs.toArray⟩
  | content => some content.toText

/-- A node of a file tree. -/
inductive Node where
  | file (content : Content) (executable : Bool)
  | directory (entries : List (String × Node))
  | link (target : String)
deriving Inhabited

/-- A place in a tree, by its names from the root. No link is followed on the way. -/
abbrev Place := List String

/-- Why a path cannot be looked at. -/
inductive StatFault where
  | missing
  | notDirectory
  | loop
  | nameTooLong
deriving Repr, DecidableEq

namespace Node

/-- The entry with this name. -/
def child? (name : String) : Node → Option Node
  | .directory entries => (entries.find? fun e => e.1 == name).map (·.2)
  | _ => none

/-- The node at a place below this one. -/
def at? : Place → Node → Option Node
  | [], n => some n
  | name :: rest, n =>
    match n.child? name with
    | some m => at? rest m
    | none => none

/-- A directory. -/
def isDirectory : Node → Bool
  | .directory _ => true
  | _ => false

/-- A regular file. -/
def isFile : Node → Bool
  | .file _ _ => true
  | _ => false

/-- A symbolic link. -/
def isLink : Node → Bool
  | .link _ => true
  | _ => false

/-- The entries with `name` changed by `f`, which is given the old entry if there is one. -/
def alter (name : String) (f : Option Node → Node) : List (String × Node) → List (String × Node)
  | [] => [(name, f none)]
  | (k, n) :: rest => if k == name then (k, f (some n)) :: rest else (k, n) :: alter name f rest

/-- The node with `new` put at a place below it. Directories on the way are made. -/
def put (new : Node) : Place → Node → Node
  | [], _ => new
  | name :: rest, n =>
    let entries := match n with
      | .directory es => es
      | _ => []
    .directory (alter name (fun old => put new rest (old.getD (.directory []))) entries)

/-- A directory at a place, kept if there is one. -/
def putDirectory (place : Place) (n : Node) : Node :=
  match n.at? place with
  | some (.directory _) => n
  | _ => put (.directory []) place n

end Node

/-- A file tree with what the surroundings decide: the directory that relative paths start from, the
home directories, and the directory for temporary files. -/
structure Tree where
  top : Node
  workingDirectory : Place
  /-- The directory that `~` stands for. -/
  home : String
  /-- The directories that `~name` stands for. -/
  homes : List (String × String)
  temporary : String
deriving Inhabited

namespace Tree

/-- Names longer than this in bytes cannot be looked up. -/
def maxNameBytes : Nat := 255

/-- Paths of this many bytes or more cannot be looked up. -/
def maxPathBytes : Nat := 4096

/-- No more links than this are followed to look a path up. -/
def maxLinks : Nat := 40

/-- Follows the pieces `todo` of a path from the place `here`. Every piece asks for a directory, and an
empty one or a single dot stays there. A link is handed to `follow` with its target and what remains; the
last piece is followed only if `last` says so. -/
def walkTo (t : Tree) (last : Bool) (follow : Place → List String → Except StatFault Place) :
    Place → List String → Except StatFault Place
  | here, [] => .ok here
  | here, name :: rest =>
    match t.top.at? here with
    | some (.directory _) =>
      if name.isEmpty || name == "." then walkTo t last follow here rest
      else if name == ".." then walkTo t last follow here.dropLast rest
      else if maxNameBytes < name.utf8ByteSize then .error .nameTooLong
      else match t.top.at? (here ++ [name]) with
        | none => .error .missing
        | some (.link target) =>
          if rest.isEmpty && !last then .ok (here ++ [name])
          else if target.isEmpty then .error .missing
          else
            let start := if Text.hasStart "/" target then [] else here
            follow start (Text.splitOn '/' target ++ rest)
        | some _ => walkTo t last follow (here ++ [name]) rest
    | some _ => .error .notDirectory
    | none => .error .missing

/-- The place that the components lead to from `here`, through at most `links` links. -/
def locate (t : Tree) (last : Bool) : (links : Nat) → Place → List String → Except StatFault Place
  | 0 => t.walkTo last fun _ _ => .error .loop
  | links + 1 => t.walkTo last (t.locate last links)

/-- The place where a path starts. -/
def startOf (t : Tree) (p : Path) : Place := if p.isAbsolute then [] else t.workingDirectory

/-- The place that a path leads to, following the last component's links if `last` says so. -/
def find (t : Tree) (last : Bool) (p : Path) : Except StatFault Place :=
  if maxPathBytes ≤ p.toString.utf8ByteSize then .error .nameTooLong
  else t.locate last maxLinks (t.startOf p) p.parts

/-- The node that a path leads to, links followed. -/
def stat (t : Tree) (p : Path) : Except StatFault Node :=
  match t.find true p with
  | .error e => .error e
  | .ok place =>
    match t.top.at? place with
    | some n => .ok n
    | none => .error .missing

/-- The answer of a test about what a path leads to. A path that leads nowhere fails the test; one
that cannot be looked at at all is reported. -/
def test (t : Tree) (p : Path) (holds : Node → Bool) : Except StatFault Bool :=
  match t.stat p with
  | .ok n => .ok (holds n)
  | .error .nameTooLong => .error .nameTooLong
  | .error _ => .ok false

/-- The path leads to something. -/
def exists? (t : Tree) (p : Path) : Except StatFault Bool := t.test p fun _ => true

/-- The path leads to a regular file. -/
def isFile? (t : Tree) (p : Path) : Except StatFault Bool := t.test p Node.isFile

/-- The path leads to a directory. -/
def isDirectory? (t : Tree) (p : Path) : Except StatFault Bool := t.test p Node.isDirectory

/-- The path leads to a regular file; a path that cannot be looked at does not. -/
def isFile (t : Tree) (p : Path) : Bool := (t.isFile? p).toOption.getD false

/-- The path leads to a directory; a path that cannot be looked at does not. -/
def isDirectory (t : Tree) (p : Path) : Bool := (t.isDirectory? p).toOption.getD false

/-- The content of the regular file that a path leads to. -/
def read? (t : Tree) (p : Path) : Option Content :=
  match t.stat p with
  | .ok (.file content _) => some content
  | _ => none

/-- The path leads to something that may be executed. -/
def isExecutable (t : Tree) (p : Path) : Bool :=
  match t.stat p with
  | .ok (.file _ executable) => executable
  | .ok (.directory _) => true
  | _ => false

/-- The tree with a text file written where a path leads. -/
def write (t : Tree) (p : Path) (s : String) : Tree :=
  { t with top := Node.put (.file (.text s) false) p.parts t.top }

end Tree

end Assay.Files

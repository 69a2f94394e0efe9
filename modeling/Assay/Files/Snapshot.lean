import Assay.Files.Resolve
import Assay.Datum

/-!
# Snapshots

A snapshot describes files by their paths: regular files by their text or their size, directories, and
links. Unpacked below a place of a tree it makes every directory on the way, and the links last, so that
no file is put through a link.
-/

namespace Assay.Files

/-- What stands at one path of a snapshot. -/
inductive Item where
  | file (content : Content) (executable : Bool)
  | directory
  | link (target : String)
deriving Repr, DecidableEq

namespace Item

/-- The item that a value describes: a text is a file, a table has a link, a directory, a size, or a
text. -/
def ofDatum (d : Datum) : Item :=
  let executable := (d.get "exec").isTruthy
  match d, d.get "symlink", d.get "size", d.get "text" with
  | .text s, _, _, _ => .file (.text s) false
  | _, .text target, _, _ => .link target
  | _, _, .int n, _ => .file (.filler n.toNat) executable
  | _, _, _, content =>
    if (d.get "dir").isTruthy then .directory
    else match content with
      | .text s => .file (.text s) executable
      | _ => .file (.text "") executable

/-- The item is a link. -/
def isLink : Item → Bool
  | .link _ => true
  | _ => false

/-- Puts the item at a place. -/
def putAt (place : Place) (top : Node) : Item → Node
  | .file content executable => Node.put (.file content executable) place top
  | .directory => Node.putDirectory place top
  | .link target => Node.put (.link target) place top

end Item

/-- The items of a snapshot by their paths. -/
abbrev Snapshot := List (String × Item)

/-- The snapshot that a table describes. -/
def Snapshot.ofDatum : Datum → Snapshot
  | .table entries => entries.map fun (path, d) => (path, Item.ofDatum d)
  | _ => []

/-- Puts items below a place, one after another. -/
def Node.unpack (base : Place) (items : Snapshot) (top : Node) : Node :=
  items.foldl (fun top (path, item) => item.putAt (normalize (base ++ Text.splitOn '/' path)) top) top

/-- The tree with a snapshot unpacked below a place, which becomes a directory. -/
def Tree.unpack (t : Tree) (base : Place) (items : Snapshot) : Tree :=
  let (links, others) := items.partition fun e => e.2.isLink
  { t with top := Node.unpack base links (Node.unpack base others (Node.putDirectory base t.top)) }

end Assay.Files

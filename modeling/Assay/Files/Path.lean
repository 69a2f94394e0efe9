import Assay.Text.Split

/-!
# Paths

A path is an anchor and a row of components. Empty components and single dots are dropped when a path
is read; two dots stay. Exactly two leading slashes are an anchor of their own, any other number of
them is one slash.
-/

namespace Assay.Files

/-- Where a path starts. -/
inductive Anchor where
  | here
  | root
  | doubleRoot
deriving Repr, DecidableEq, Inhabited

/-- The text of an anchor. -/
def Anchor.text : Anchor → String
  | .here => ""
  | .root => "/"
  | .doubleRoot => "//"

/-- A path as written, before any link is followed. -/
structure Path where
  anchor : Anchor
  parts : List String
deriving Repr, DecidableEq, Inhabited

namespace Path

/-- The anchor that a text starts with. -/
def anchorOf : List Char → Anchor
  | '/' :: '/' :: '/' :: _ => .root
  | '/' :: '/' :: _ => .doubleRoot
  | '/' :: _ => .root
  | _ => .here

/-- The pieces between slashes that count. -/
def counted (pieces : List String) : List String := pieces.filter fun p => !p.isEmpty && p != "."

/-- The components of a text that count. -/
def partsOf (s : String) : List String := counted (Text.splitOn '/' s)

/-- The path that a text denotes. -/
def ofString (s : String) : Path := ⟨anchorOf s.toList, partsOf s⟩

/-- The path that the pieces of a text between slashes denote. -/
def ofPieces (pieces : List String) : Path := ⟨anchorOf (Text.join "/" pieces).toList, counted pieces⟩

/-- The text of a path; an empty relative path is a dot. -/
def toString (p : Path) : String :=
  if p.anchor == .here && p.parts.isEmpty then "." else p.anchor.text ++ Text.join "/" p.parts

instance : ToString Path := ⟨toString⟩

/-- The path starts at a root. -/
def isAbsolute (p : Path) : Bool := p.anchor != .here

/-- `q` taken from `p`; an absolute `q` stands for itself. -/
def join (p q : Path) : Path := if q.isAbsolute then q else ⟨p.anchor, p.parts ++ q.parts⟩

instance : Div Path := ⟨join⟩

/-- More components. -/
def below (p : Path) (parts : List String) : Path := ⟨p.anchor, p.parts ++ parts⟩

/-- One more component. -/
def child (p : Path) (name : String) : Path := ⟨p.anchor, p.parts ++ [name]⟩

/-- The last component, empty if there is none. -/
def name (p : Path) : String := p.parts.getLast?.getD ""

/-- The path above. Where a relative path has no component to take back, two dots are added. -/
def up (p : Path) : Path :=
  if p.anchor == .here && (p.parts.isEmpty || p.name == "..") then p.child ".."
  else ⟨p.anchor, p.parts.dropLast⟩

/-- What a path starts from: the root, or nothing. -/
def origin (p : Path) : Path := ⟨if p.isAbsolute then .root else .here, []⟩

/-- The ending of a name from its last dot on. A dot at either end of the name starts no ending. -/
def suffixOf (name : String) : String :=
  let rev := name.toList.reverse
  let tail := rev.takeWhile (· != '.')
  match rev.drop tail.length with
  | '.' :: stem =>
    if tail.isEmpty || stem.isEmpty then "" else String.ofList ('.' :: tail.reverse)
  | _ => ""

/-- The ending of the last component. -/
def suffix (p : Path) : String := suffixOf p.name

/-- The first list of components begins the second. -/
def begins : List String → List String → Bool
  | [], _ => true
  | _ :: _, [] => false
  | a :: as, b :: bs => a == b && begins as bs

/-- The path is `base` or lies below it, compared component by component. -/
def isWithin (p base : Path) : Bool := p.anchor == base.anchor && begins base.parts p.parts

/-- The components that lead from `base` to the path; `none` if it does not lie there. -/
def relativeTo? (p base : Path) : Option (List String) :=
  if p.isWithin base then some (p.parts.drop base.parts.length) else none

/-- The text of a row of components without an anchor. -/
def relativeText (parts : List String) : String := (⟨.here, parts⟩ : Path).toString

/-- The absolute path with these components. -/
def rooted (parts : List String) : Path := ⟨.root, parts⟩

end Path

end Assay.Files

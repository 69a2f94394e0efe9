import Assay.Markup.Element
import Assay.Markup.Token

/-!
# Documents

The tokens of a document make up one element tree. Declarations stand at the head, only blanks,
comments and instructions around the outermost element, and every tag is closed by its own name.
Namespace marks have to be declared at the element or around it.
-/

namespace Assay.Markup

/-- The namespaces in force, by their marks; the innermost first. The empty mark is the default. -/
abbrev Scope := List (List Char × List Char)

/-- The namespace of the mark that every document has. -/
def builtInNamespace : List Char := "http://www.w3.org/XML/1998/namespace".toList

/-- The namespace of the marks that declare namespaces. -/
def declaringNamespace : List Char := "http://www.w3.org/2000/xmlns/".toList

/-- The scope of a whole document. -/
def Scope.start : Scope := [("xml".toList, builtInNamespace)]

/-- The mark and the local part of a name. -/
def splitName (name : List Char) : List Char × List Char :=
  match Text.cut ':' name with
  | some (mark, local_) => (mark, local_)
  | none => ([], name)

/-- The scope with a mark declared; `none` if the declaration is not allowed. -/
def Scope.declare (scope : Scope) (mark uri : List Char) : Option Scope :=
  if mark == "xmlns".toList || uri == declaringNamespace || uri.contains '\x7d' then none
  else if mark == "xml".toList then if uri == builtInNamespace then some scope else none
  else if uri == builtInNamespace then none
  else if !mark.isEmpty && uri.isEmpty then none
  else some ((mark, uri) :: scope)

/-- The scope inside a tag with these attributes. -/
def Scope.enter : List (List Char × List Char) → Scope → Option Scope
  | [], scope => some scope
  | (key, value) :: rest, scope =>
    if key == "xmlns".toList then (scope.declare [] value).bind (enter rest)
    else
      let (mark, local_) := splitName key
      if mark == "xmlns".toList then (scope.declare local_ value).bind (enter rest)
      else enter rest scope

/-- The full form of an element's name. -/
def Scope.expand (scope : Scope) (name : List Char) : Option (List Char) :=
  let (mark, local_) := splitName name
  match scope.lookup mark with
  | some [] => if mark.isEmpty then some local_ else none
  | some uri => some ('\x7b' :: uri ++ '\x7d' :: local_)
  | none => if mark.isEmpty then some local_ else none

/-- The full forms of the attributes that declare no namespace. An attribute without a mark is in no
namespace. -/
def Scope.expandAttributes (scope : Scope) : List (List Char × List Char) → Option (List (List Char))
  | [] => some []
  | (key, _) :: rest => do
    let others ← scope.expandAttributes rest
    let (mark, local_) := splitName key
    if mark.isEmpty || mark == "xmlns".toList then
      return if mark.isEmpty then local_ :: others else others
    else
      let uri ← scope.lookup mark
      return ('\x7b' :: uri ++ '\x7d' :: local_) :: others

/-- No item stands twice. -/
def allDistinct (names : List (List Char)) : Bool :=
  match names with
  | [] => true
  | n :: rest => !rest.contains n && allDistinct rest

/-- An element that is still open: its name as written, its tag, the scope around it, the text before
its first child in reverse, and its children in reverse. -/
structure Frame where
  name : List Char
  tag : String
  outer : Scope
  text : Option (List Char)
  children : List Element

/-- The finished element. -/
def Frame.close (f : Frame) : Element :=
  .node f.tag (f.text.map fun cs => String.ofList cs.reverse) f.children.reverse

/-- The frame with more text, which counts only before the first child. -/
def Frame.addText (f : Frame) (cs : List Char) : Frame :=
  if f.children.isEmpty && !cs.isEmpty then { f with text := some (cs.reverse ++ f.text.getD []) } else f

/-- The frame with one more child. -/
def Frame.addChild (f : Frame) (e : Element) : Frame := { f with children := e :: f.children }

/-- How far the tokens have been put together. -/
inductive Progress where
  /-- Before the outermost element; whether anything but blanks came, and whether its type did. -/
  | head (started typed : Bool)
  /-- Inside the innermost of the open elements. -/
  | inside (scope : Scope) (inner : Frame) (outer : List Frame)
  /-- After the outermost element. -/
  | after (root : Element)

/-- The state after an element has been finished inside the given frames. -/
def finish (e : Element) (scope : Scope) : List Frame → Progress
  | [] => .after e
  | f :: rest => .inside scope (f.addChild e) rest

/-- A tag opened in a scope inside the given frames. -/
def openTag (scope : Scope) (frames : List Frame) (name : List Char)
    (attributes : List (List Char × List Char)) (closed : Bool) : Option Progress := do
  let inner ← scope.enter attributes
  let tag ← inner.expand name
  let keys ← inner.expandAttributes attributes
  if !allDistinct keys then none
  let frame : Frame := ⟨name, String.ofList tag, scope, none, []⟩
  if closed then return finish frame.close scope frames
  else return .inside inner frame frames

/-- The state after one more token. -/
def Progress.step : Progress → Token → Option Progress
  | .head false false, .head _ => some (.head true false)
  | .head _ false, .doctype _ => some (.head true true)
  | .head _ typed, .comment => some (.head true typed)
  | .head _ typed, .instruction => some (.head true typed)
  | .head _ typed, .text cs => if cs.all isSpace then some (.head true typed) else none
  | .head _ _, .startTag name attributes closed => openTag Scope.start [] name attributes closed
  | .inside scope inner outer, .startTag name attributes closed =>
    openTag scope (inner :: outer) name attributes closed
  | .inside _ inner outer, .endTag name =>
    if inner.name == name then some (finish inner.close inner.outer outer) else none
  | .inside scope inner outer, .text cs => some (.inside scope (inner.addText cs) outer)
  | .inside scope inner outer, .literal cs => some (.inside scope (inner.addText cs) outer)
  | .inside scope inner outer, .comment => some (.inside scope inner outer)
  | .inside scope inner outer, .instruction => some (.inside scope inner outer)
  | .after root, .comment => some (.after root)
  | .after root, .instruction => some (.after root)
  | .after root, .text cs => if cs.all isSpace then some (.after root) else none
  | _, _ => none

/-- The state after a row of tokens. -/
def Progress.run : Progress → List Token → Option Progress
  | p, [] => some p
  | p, token :: rest =>
    match p.step token with
    | some q => q.run rest
    | none => none

/-- The outermost element of a document; `none` if the text is no document. -/
def read? (s : String) : Option Element := do
  let tokens ← Token.scan? s.toList
  match ← (Progress.head false false).run tokens with
  | .after root => return root
  | _ => none

end Assay.Markup

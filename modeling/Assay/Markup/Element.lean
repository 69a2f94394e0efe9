/-!
# Elements

The tree of a markup document as far as it is read here: each element has a tag, the text before its
first child, and its children. A tag in a namespace is written with the namespace in braces before it.
-/

namespace Assay.Markup

/-- An element of a document. -/
inductive Element where
  | node (tag : String) (text : Option String) (children : List Element)
deriving Inhabited

namespace Element

/-- The tag. -/
def tag : Element → String
  | node t _ _ => t

/-- The text before the first child, if there is any. -/
def text : Element → Option String
  | node _ s _ => s

/-- The elements directly below this one. -/
def children : Element → List Element
  | node _ _ cs => cs

/-- The elements directly below this one that have a tag. -/
def childrenOf (e : Element) (tag : String) : List Element := e.children.filter fun c => c.tag == tag

/-- The elements at the end of a path of tags. -/
def findAll (e : Element) : List String → List Element
  | [] => [e]
  | tag :: rest => (e.childrenOf tag).flatMap fun c => findAll c rest

/-- The text of the first element at the end of a path of tags, empty if that holds none. -/
def findText? (e : Element) (path : List String) : Option String :=
  (e.findAll path).head?.map fun c => c.text.getD ""

end Element

end Assay.Markup

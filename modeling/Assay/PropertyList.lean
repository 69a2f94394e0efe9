import Assay.Decimal.Numeral
import Assay.Markup.Document
import Assay.Readers.Field

/-!
# Property lists

A property list is a document whose elements spell out a value: tables of alternating keys and values,
lists, texts, numbers and truth values. An element with any other tag is null.

Elements are read one inside the other, and there is room for so many levels of them (`maxDepth`). A list
takes up two, its own and one for its items, so tables may be nested twice as deep as lists.
-/

namespace Assay.PropertyList

open Markup (Element)

/-- The levels that there is room for. -/
def maxDepth : Nat := 960

/-- The keys of a table with their elements: the elements in pairs, without those whose first element
is no key or an empty one. -/
def keyed : List Element → List (String × Element)
  | key :: value :: rest =>
    match key.tag, key.text with
    | "key", some name => (name, value) :: keyed rest
    | _, _ => keyed rest
  | _ => []

/-- The values of entries, each read by `item`. -/
def entriesWith (item : Element → Except Breach Datum) :
    List (String × Element) → Except Breach (List (String × Datum))
  | [] => .ok []
  | (key, e) :: rest => do
    let value ← item e
    let others ← entriesWith item rest
    return (key, value) :: others

/-- The whole number that an element holds, null if it holds none. -/
def wholeOf (e : Element) : Except Breach Datum :=
  match Readers.wholeOfText? e.text with
  | .ok (some n) => .ok (.int n)
  | .ok none => .ok .null
  | .error fault => .error fault.breach

/-- The double that an element holds, null if it holds none. -/
def realOf (e : Element) : Datum :=
  match Decimal.ofFreeText? (e.text.getD "") with
  | some x => .float x
  | none => .null

mutual

/-- The value that an element spells out, if it takes up no more than `depth` levels. -/
def value : (depth : Nat) → Element → Except Breach Datum
  | 0, _ => .error .tooDeep
  | depth + 1, e =>
    match e.tag with
    | "plist" =>
      match e.children with
      | first :: _ => value depth first
      | [] => .ok .null
    | "dict" => (entriesWith (value depth) (keyed e.children)).map Datum.ofEntries
    | "array" => (values depth e.children).map Datum.list
    | "string" => .ok (.text (e.text.getD ""))
    | "integer" => wholeOf e
    | "real" => .ok (realOf e)
    | "true" => .ok (.bool true)
    | "false" => .ok (.bool false)
    | _ => .ok .null

/-- The values of the items of a list, which are a level of their own. -/
def values : (depth : Nat) → List Element → Except Breach (List Datum)
  | 0, _ => .error .tooDeep
  | depth + 1, es => es.mapM (value depth)

end

/-- The value of a whole document. -/
def decode (e : Element) : Except Breach Datum := value maxDepth e

end Assay.PropertyList

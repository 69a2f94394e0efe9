import Assay.Datum.Number
import Assay.Text.Split

/-!
# Values as operands

A value that nobody has checked may be of any kind. Each operation here is made for some kinds of
values and fails for the others: with `wrongKind` where the value is an operand, with `unsupported`
where it should have brought the operation along.
-/

namespace Assay.Datum

mutual

/-- The values are equal: numbers by size, tables whatever the order of their keys. -/
def same : Datum → Datum → Bool
  | .null, .null => true
  | .text s, .text t => s == t
  | .moment s, .moment t => s == t
  | .list as, .list bs => sameItems as bs
  | .table as, .table bs => as.length == bs.length && sameEntries as bs
  | a, b =>
    match Number.ofDatum? a, Number.ofDatum? b with
    | some m, some n => m.same n
    | _, _ => false

/-- The items are equal one by one. -/
def sameItems : List Datum → List Datum → Bool
  | [], [] => true
  | a :: as, b :: bs => same a b && sameItems as bs
  | _, _ => false

/-- Every entry stands in the other table, too. -/
def sameEntries : List (String × Datum) → List (String × Datum) → Bool
  | [], _ => true
  | (k, a) :: as, bs =>
    (match lookup k bs with
      | some b => same a b
      | none => false) && sameEntries as bs

end

/-- The value can be looked up: it is neither a list nor a table. -/
def isKey : Datum → Bool
  | .list _ | .table _ => false
  | _ => true

/-- The value, which has to be one that can be looked up. -/
def asKey (d : Datum) : Except Breach Datum := if d.isKey then .ok d else .error .wrongKind

/-- The parts of a value that has any: items, keys, or characters. -/
def parts? : Datum → Option (List Datum)
  | .list items => some items
  | .table entries => some (entries.map fun e => .text e.1)
  | .text s => some (s.toList.map fun c => .text (String.ofList [c]))
  | _ => none

/-- The parts of a value, which has to have parts. -/
def parts (d : Datum) : Except Breach (List Datum) :=
  match d.parts? with
  | some ds => .ok ds
  | none => .error .wrongKind

/-- How many parts a value has. -/
def size (d : Datum) : Except Breach Nat := d.parts.map List.length

/-- A text is among the parts of a value, or in a text as a whole. -/
def has (needle : String) : Datum → Except Breach Bool
  | .text s => .ok (Text.contains needle s)
  | d => d.parts.map fun ds => ds.any fun x => same (.text needle) x

/-- The text, which brings along what texts can do. -/
def ownText : Datum → Except Breach String
  | .text s => .ok s
  | _ => .error .unsupported

/-- The text that a value is as an operand. -/
def asText : Datum → Except Breach String
  | .text s => .ok s
  | _ => .error .wrongKind

/-- The values without those that stand before, of which each has to be one that can be looked up. -/
def distinct (ds : List Datum) : Except Breach (List Datum) := do
  let keys ← ds.mapM asKey
  return (keys.foldl (fun seen d => if seen.any d.same then seen else d :: seen) []).reverse

end Assay.Datum

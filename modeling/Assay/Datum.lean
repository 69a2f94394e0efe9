/-!
# Data

The values that tools print, configuration files hold and documents are made of: one dynamic type
for all three formats. A table keeps its keys in the order of their first appearance, and each key
stands once.
-/

namespace Assay

/-- A value of a document. -/
inductive Datum where
  | null
  | bool (b : Bool)
  | int (n : Int)
  | float (x : Float)
  | text (s : String)
  | list (items : List Datum)
  | table (entries : List (String × Datum))
  /-- A date, a time or both, by its text. -/
  | moment (text : String)
deriving Inhabited

namespace Datum

/-- The value of a key in a row of entries. -/
def lookup (key : String) (entries : List (String × Datum)) : Option Datum :=
  (entries.find? fun e => e.1 == key).map (·.2)

/-- The entries with `key` set: in its old place if it was there, at the end if not. -/
def insert (key : String) (value : Datum) : List (String × Datum) → List (String × Datum)
  | [] => [(key, value)]
  | (k, v) :: rest => if k == key then (k, value) :: rest else (k, v) :: insert key value rest

/-- A table from entries in which a later value of a key replaces an earlier one. -/
def ofEntries (entries : List (String × Datum)) : Datum :=
  .table (entries.foldl (fun acc (k, v) => insert k v acc) [])

/-- The value of a key; `none` also for what is no table. -/
def get? (key : String) : Datum → Option Datum
  | .table entries => lookup key entries
  | _ => none

/-- The value of a key, null if it is missing. -/
def get (key : String) (d : Datum) : Datum := (d.get? key).getD .null

/-- The value at the end of a path of keys, null on any miss. -/
def dig : List String → Datum → Datum
  | [], d => d
  | key :: keys, d => dig keys (d.get key)

/-- A table. -/
def isTable : Datum → Bool
  | .table _ => true
  | _ => false

/-- The tables among the items of a list, in order; none for what is no list. -/
def tables : Datum → List Datum
  | .list items => items.filter isTable
  | _ => []

/-- Counts as true in a test: everything but null, false, zero and what is empty. -/
def isTruthy : Datum → Bool
  | .null => false
  | .bool b => b
  | .int n => n != 0
  | .float x => !(x == 0.0)
  | .text s => !s.isEmpty
  | .list items => !items.isEmpty
  | .table entries => !entries.isEmpty
  | .moment _ => true

mutual

/-- The value with every key and every value that is no list and no table changed. -/
def mapLeaves (key : String → String) (leaf : Datum → Datum) : Datum → Datum
  | .list items => .list (mapItems key leaf items)
  | .table entries => .table (mapEntries key leaf entries)
  | d => leaf d

/-- The items changed one by one. -/
def mapItems (key : String → String) (leaf : Datum → Datum) : List Datum → List Datum
  | [] => []
  | d :: rest => mapLeaves key leaf d :: mapItems key leaf rest

/-- The entries changed one by one. -/
def mapEntries (key : String → String) (leaf : Datum → Datum) :
    List (String × Datum) → List (String × Datum)
  | [] => []
  | (k, d) :: rest => (key k, mapLeaves key leaf d) :: mapEntries key leaf rest

end

/-- The value with every text in it changed, keys included. -/
def mapTexts (f : String → String) : Datum → Datum :=
  mapLeaves f fun
    | .text s => .text (f s)
    | d => d

/-- The table without some of its entries. -/
def without (keys : List String) : Datum → Datum
  | .table entries => .table (entries.filter fun e => !keys.contains e.1)
  | d => d

end Datum

end Assay

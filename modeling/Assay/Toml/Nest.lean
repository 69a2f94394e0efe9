import Assay.Toml.Key

/-!
# Nested tables

A dotted key leads through tables, which are made on the way. Where a table is reached through a list
of tables, its last one is meant.
-/

namespace Assay.Toml

/-- The entries of a table. -/
abbrev Entries := List (String × Datum)

/-- Changes the table at the end of a key; `none` if something other than a table is in the way.
Lists are entered only if `lists` says so. -/
def Entries.alterAt (lists : Bool) (f : Entries → Option Entries) : Key → Entries → Option Entries
  | [], es => f es
  | k :: ks, es =>
    let inner : Option Datum := match Datum.lookup k es with
      | none => (alterAt lists f ks []).map .table
      | some (.table inner) => (alterAt lists f ks inner).map .table
      | some (.list items) =>
        match lists, items.getLast? with
        | true, some (.table inner) =>
          (alterAt lists f ks inner).map fun new => .list (items.dropLast ++ [.table new])
        | _, _ => none
      | some _ => none
    inner.map fun d => Datum.insert k d es

/-- Makes sure that there is a table at the end of a key. -/
def Entries.openTable (k : Key) (es : Entries) : Option Entries := es.alterAt true some k

/-- Adds an empty table to the list at the end of a key. -/
def Entries.appendTable (k : Key) (es : Entries) : Option Entries :=
  match k.getLast? with
  | none => none
  | some name =>
    es.alterAt true (fun inner => match Datum.lookup name inner with
      | none => some (Datum.insert name (.list [.table []]) inner)
      | some (.list items) => some (Datum.insert name (.list (items ++ [.table []])) inner)
      | some _ => none) k.dropLast

/-- Sets a key that has no value yet. -/
def Entries.assign (lists : Bool) (k : Key) (d : Datum) (es : Entries) : Option Entries :=
  match k.getLast? with
  | none => none
  | some name =>
    es.alterAt lists (fun inner => match Datum.lookup name inner with
      | none => some (Datum.insert name d inner)
      | some _ => none) k.dropLast

/-- The first key is the second or leads on the way to it. -/
def leadsTo : Key → Key → Bool
  | [], _ => true
  | _ :: _, [] => false
  | a :: as, b :: bs => a == b && leadsTo as bs

/-- What may not be opened or changed any more: tables that have been declared, and values that are
closed with everything in them. -/
structure Closed where
  declared : List Key := []
  frozen : List Key := []
  /-- Tables that count as declared from the next header on. -/
  pending : List Key := []

namespace Closed

/-- The table at the key has been declared. -/
def isDeclared (c : Closed) (k : Key) : Bool := !k.isEmpty && c.declared.contains k

/-- The key lies in a closed value. -/
def isFrozen (c : Closed) (k : Key) : Bool := c.frozen.any fun f => leadsTo f k

/-- The table at the key is declared. -/
def declare (c : Closed) (k : Key) : Closed := { c with declared := k :: c.declared }

/-- The value at the key is closed. -/
def freeze (c : Closed) (k : Key) : Closed := { c with frozen := k :: c.frozen }

/-- The table at the key will count as declared. -/
def declareLater (c : Closed) (k : Key) : Closed := { c with pending := k :: c.pending }

/-- Tables that were pending count as declared. -/
def settle (c : Closed) : Closed := { c with declared := c.pending ++ c.declared, pending := [] }

/-- The key and everything below it may be used anew. -/
def free (c : Closed) (k : Key) : Closed :=
  { c with
    declared := c.declared.filter fun d => !leadsTo k d
    frozen := c.frozen.filter fun f => !leadsTo k f }

end Closed

/-- The value is a list or a table, which is closed once it has been read. -/
def isContainer : Datum → Bool
  | .list _ | .table _ => true
  | _ => false

end Assay.Toml

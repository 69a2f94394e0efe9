import Assay.Toml.Value

/-!
# Documents in TOML

A document is a row of statements, one on a line: a key with its value, the header of a table, or the
header of a table in a list. A table is declared at most once, a key set at most once, and a value that
is written out as a list or a table is closed.
-/

namespace Assay.Toml

/-- A document that has been read in part: what it says, what is closed, and the header in force. -/
structure Reading where
  entries : Entries := []
  closed : Closed := {}
  header : Key := []

/-- The keys of the tables that a dotted key leads through, from the header on. -/
def tablesOn (header : Key) (k : Key) : List Key :=
  (List.range (k.length - 1)).map fun n => header ++ k.take (n + 1)

/-- A key with its value. -/
def Reading.assign (r : Reading) (k : Key) (d : Datum) : Except Fault Reading := do
  let tables := tablesOn r.header k
  if tables.any r.closed.isDeclared then throw .invalid
  let closed := tables.foldl Closed.declareLater r.closed
  let whole := r.header ++ k
  if closed.isFrozen whole.dropLast then throw .invalid
  match r.entries.assign true whole d with
  | none => throw .invalid
  | some entries =>
    return { r with entries, closed := if isContainer d then closed.freeze whole else closed }

/-- The header of a table. -/
def Reading.openTable (r : Reading) (k : Key) : Except Fault Reading := do
  if r.closed.isDeclared k || r.closed.isFrozen k then throw .invalid
  match r.entries.openTable k with
  | none => throw .invalid
  | some entries => return { entries, closed := r.closed.declare k, header := k }

/-- The header of a table in a list. -/
def Reading.appendTable (r : Reading) (k : Key) : Except Fault Reading := do
  if r.closed.isFrozen k then throw .invalid
  match r.entries.appendTable k with
  | none => throw .invalid
  | some entries => return { entries, closed := (r.closed.free k).declare k, header := k }

/-- The key of a header and the text after its closing brackets. -/
def headerKey (closing : List Char) (cs : List Char) : Except Fault (Key × List Char) := do
  let (k, rest) ← key (skipSpace cs)
  match Text.dropStart? closing rest with
  | some after => return (k, after)
  | none => throw .invalid

/-- The statement at the start of a line, if there is one. -/
def Reading.statement (r : Reading) : List Char → Except Fault (Reading × List Char)
  | '[' :: '[' :: rest => do
    let (k, after) ← headerKey [']', ']'] rest
    return (← { r with closed := r.closed.settle }.appendTable k, after)
  | '[' :: rest => do
    let (k, after) ← headerKey [']'] rest
    return (← { r with closed := r.closed.settle }.openTable k, after)
  | c :: rest =>
    if beginsKey c then do
      let ((k, d), after) ← pair value (c :: rest)
      return (← r.assign k d, after)
    else if c == '#' || c == '\n' then .ok (r, c :: rest)
    else .error .invalid
  | [] => .ok (r, [])

/-- The lines of a document from some line on. -/
def Reading.lines : (fuel : Nat) → Reading → List Char → Except Fault Entries
  | 0, _, _ => .error .invalid
  | fuel + 1, r, cs => do
    let (r, rest) ← r.statement (skipSpace cs)
    match ← skipComment (skipSpace rest) with
    | [] => return r.entries
    | '\n' :: more => Reading.lines fuel r more
    | _ => throw .invalid

/-- The text with line feeds alone at the ends of lines. -/
def plainLines : List Char → List Char
  | '\r' :: '\n' :: rest => '\n' :: plainLines rest
  | c :: rest => c :: plainLines rest
  | [] => []

/-- What a document says. -/
def read? (s : String) : Except Fault Datum :=
  let cs := plainLines s.toList
  (Reading.lines (cs.length + 1) {} cs).map Datum.table

end Assay.Toml

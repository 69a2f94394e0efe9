import Assay.Schema.Scalar

/-!
# Reading and writing records

A record is a table with fixed fields. A field named in small words (`start_line`) may also be spelled
with capitals inside (`startLine`), and that spelling counts if both are there. Faults come in the
order of the fields; keys that belong to no field are ignored, or reported after all fields.
-/

namespace Assay.Schema

/-- The characters with each underscore dropped and the character after it in upper case. -/
def camelFrom : List Char → List Char
  | [] => []
  | '_' :: c :: rest => c.toUpper :: camelFrom rest
  | c :: rest => c :: camelFrom rest

/-- The spelling of a field's name with capitals inside. -/
def camel (name : String) : String := String.ofList (camelFrom name.toList)

/-- A table read as a record. -/
structure Record where
  entries : List (String × Datum)
  /-- Fields have a second spelling. -/
  aliased : Bool

namespace Record

/-- The spelling under which a missing field is reported. -/
def spelling (r : Record) (name : String) : String := if r.aliased then camel name else name

/-- The entry that stands for a field. -/
def field? (r : Record) (name : String) : Option (String × Datum) :=
  match Datum.lookup (r.spelling name) r.entries with
  | some d => some (r.spelling name, d)
  | none => (Datum.lookup name r.entries).map fun d => (name, d)

/-- A field that has to be there. -/
def required {α : Type} (r : Record) (name : String) (read : Datum → Checked α) : Checked α :=
  match r.field? name with
  | some (key, d) => (read d).under (.key key)
  | none => .bad [⟨[.key (r.spelling name)], .missing⟩]

/-- A field with a value for when it is missing. -/
def given {α : Type} (r : Record) (name : String) (read : Datum → Checked α) (fallback : α) :
    Checked α :=
  match r.field? name with
  | some (key, d) => (read d).under (.key key)
  | none => .good fallback

/-- A field that may be missing or null. -/
def optional {α : Type} (r : Record) (name : String) (read : Datum → Checked α) :
    Checked (Option α) :=
  r.given name (nullable read) none

/-- The keys that stand for the fields. -/
def used (r : Record) (fields : List String) : List String :=
  fields.filterMap fun name => (r.field? name).map (·.1)

/-- No key stands for none of the fields. -/
def closed (r : Record) (fields : List String) : Checked Unit :=
  match r.entries.filter fun (key, _) => !(r.used fields).contains key with
  | [] => .good ()
  | unexpected => .bad (unexpected.map fun (key, _) => ⟨[.key key], .unexpected⟩)

end Record

/-- A table read as a record with two spellings. -/
def aliasedRecord {α : Type} (title : String) (read : Record → Checked α) : Datum → Checked α
  | .table entries => read ⟨entries, true⟩
  | _ => .complain (.notRecord title)

/-- A table read as a record with one spelling. -/
def plainRecord {α : Type} (title : String) (read : Record → Checked α) : Datum → Checked α
  | .table entries => read ⟨entries, false⟩
  | _ => .complain (.notRecord title)

/-- A value that is kept if it obeys a rule. -/
def obeying {α : Type} (broken : α → Option String) (c : Checked α) : Checked α :=
  c.andThen fun a =>
    match broken a with
    | some text => .complain (.rejected text)
    | none => .good a

/-!
## Writing records

A record is written with all its fields in their order, under one of its two spellings. What is missing
is written as null.
-/

/-- How the names of fields are spelled. -/
inductive Spelling where
  /-- With capitals inside. -/
  | camel
  /-- In small words. -/
  | plain
deriving Repr, DecidableEq

/-- The spelling of a name. -/
def Spelling.of : Spelling → String → String
  | .camel, name => Schema.camel name
  | .plain, name => name

/-- A record with these fields. -/
def written (spelling : Spelling) (fields : List (String × Datum)) : Datum :=
  .table (fields.map fun (name, d) => (spelling.of name, d))

/-- A text that may be missing. -/
def writtenText (s : Option String) : Datum := (s.map Datum.text).getD .null

/-- A whole number that may be missing. -/
def writtenWhole (n : Option Int) : Datum := (n.map Datum.int).getD .null

/-- A number. -/
def writtenNat (n : Nat) : Datum := .int n

/-- A member of a vocabulary. -/
def writtenMember {α : Type} [Vocabulary α] (a : α) : Datum := .text (Vocabulary.name a)

/-- A row of texts. -/
def writtenTexts (texts : List String) : Datum := .list (texts.map Datum.text)

/-- Numbers by name. -/
def writtenCounts (counts : List (String × Int)) : Datum :=
  .table (counts.map fun (name, n) => (name, .int n))

end Assay.Schema

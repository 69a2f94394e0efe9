import Assay.Datum.Display

/-!
# Vocabularies

A vocabulary is a finite type whose members have fixed names in documents. A name that stands for no
member is reported with the title of the vocabulary.
-/

namespace Assay

/-- A finite type with a title, its members in order, and a name for each. -/
class Vocabulary (α : Type) where
  title : String
  members : List α
  name : α → String

namespace Vocabulary

variable {α : Type} [Vocabulary α]

/-- The member with this name. -/
def ofName? (s : String) : Option α := members.find? fun a => name a == s

/-- A value that stands for no member. -/
structure Unknown where
  title : String
  value : Datum

/-- The text of the report. -/
def Unknown.message (u : Unknown) : String := u.value.shown ++ " is not a valid " ++ u.title

/-- The member that a value names. -/
def parse (d : Datum) : Except Unknown α :=
  match d with
  | .text s =>
    match ofName? s with
    | some a => .ok a
    | none => .error ⟨title α, d⟩
  | _ => .error ⟨title α, d⟩

/-- The names of a vocabulary, quoted and joined as in `'a', 'b' or 'c'`. -/
def choices (α : Type) [Vocabulary α] : String :=
  let names := (members (α := α)).map fun a => "'" ++ name a ++ "'"
  match names.reverse with
  | [] => ""
  | [only] => only
  | last :: before => Text.join ", " before.reverse ++ " or " ++ last

end Vocabulary

end Assay

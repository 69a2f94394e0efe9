import Assay.Datum
import Assay.Decimal.Text
import Assay.Text.Split

/-!
# Checked reading

Reading a document into a type of this library either succeeds or yields every fault that was found,
each with the path to its place. Readings of several parts are put side by side, so that the faults of
all of them are reported in order.
-/

namespace Assay.Schema

/-- A step into a document. -/
inductive Step where
  | key (name : String)
  | place (n : Nat)
deriving Repr, DecidableEq

/-- A step as text. -/
def Step.text : Step → String
  | key name => name
  | place n => Decimal.natText n

/-- What is wrong at a place of a document. -/
inductive Complaint where
  | missing
  | unexpected
  | notKey
  | notText
  | notWhole
  | unreadableWhole
  | oversizedWhole
  | fractional
  | infinite
  | notNumber
  | unreadableNumber
  | notTruth
  | unreadableTruth
  | notMoment
  | unusableMoment (cause : String)
  | unreadableMoment (cause : String)
  | below (least : Nat)
  | above (most : Nat)
  | notList
  | notTuple
  | notTable
  | notRecord (title : String)
  /-- None of the names that are allowed here. -/
  | notMember (choices : String)
  /-- A rule beyond the shape of the document is broken. -/
  | rejected (text : String)
  | noField (name : String)
deriving Repr, DecidableEq

/-- The text of a complaint. -/
def Complaint.text : Complaint → String
  | missing => "Field required"
  | unexpected => "Extra inputs are not permitted"
  | notKey => "Keys should be strings"
  | notText => "Input should be a valid string"
  | notWhole => "Input should be a valid integer"
  | unreadableWhole => "Input should be a valid integer, unable to parse string as an integer"
  | oversizedWhole => "Unable to parse input string as an integer, exceeded maximum size"
  | fractional => "Input should be a valid integer, got a number with a fractional part"
  | infinite => "Input should be a finite number"
  | notNumber => "Input should be a valid number"
  | unreadableNumber => "Input should be a valid number, unable to parse string as a number"
  | notTruth => "Input should be a valid boolean"
  | unreadableTruth => "Input should be a valid boolean, unable to interpret input"
  | notMoment => "Input should be a valid datetime"
  | unusableMoment cause => "Input should be a valid datetime, " ++ cause
  | unreadableMoment cause => "Input should be a valid datetime or date, " ++ cause
  | below least => "Input should be greater than or equal to " ++ Decimal.natText least
  | above most => "Input should be less than or equal to " ++ Decimal.natText most
  | notList => "Input should be a valid list"
  | notTuple => "Input should be a valid tuple"
  | notTable => "Input should be a valid dictionary"
  | notRecord title => "Input should be a valid dictionary or instance of " ++ title
  | notMember choices => "Input should be " ++ choices
  | rejected text => "Value error, " ++ text
  | noField name => "Object has no attribute '" ++ name ++ "'"

/-- A complaint and the path to its place. -/
structure Fault where
  path : List Step
  complaint : Complaint
deriving Repr, DecidableEq

/-- The path and the complaint. -/
def Fault.text (f : Fault) : String :=
  Text.join "." (f.path.map Step.text) ++ ": " ++ f.complaint.text

/-- All faults in one line. -/
def faultsText (faults : List Fault) : String := Text.join "; " (faults.map Fault.text)

/-- The outcome of reading a part of a document. -/
inductive Checked (α : Type) where
  | good (a : α)
  | bad (faults : List Fault)
deriving Repr

namespace Checked

variable {α β : Type}

/-- A function of what was read. -/
def map (f : α → β) : Checked α → Checked β
  | good a => good (f a)
  | bad faults => bad faults

/-- Two readings side by side; the faults of both count. -/
def apply : Checked (α → β) → Checked α → Checked β
  | good f, good a => good (f a)
  | good _, bad faults => bad faults
  | bad faults, good _ => bad faults
  | bad first, bad second => bad (first ++ second)

instance : Functor Checked := ⟨map, fun a => map fun _ => a⟩

instance : Pure Checked := ⟨good⟩

instance : Seq Checked := ⟨fun f a => apply f (a ())⟩

/-- A further check of what was read, made only if nothing was wrong so far. -/
def andThen (c : Checked α) (f : α → Checked β) : Checked β :=
  match c with
  | good a => f a
  | bad faults => bad faults

/-- One complaint at the place itself. -/
def complain (c : Complaint) : Checked α := bad [⟨[], c⟩]

/-- The reading of a part, with its faults placed in the whole. -/
def under (step : Step) : Checked α → Checked α
  | good a => good a
  | bad faults => bad (faults.map fun f => { f with path := step :: f.path })

/-- Readings in a row. -/
def all : List (Checked α) → Checked (List α)
  | [] => good []
  | c :: rest => (c.map List.cons).apply (all rest)

/-- The outcome with the faults as an error. -/
def toExcept : Checked α → Except (List Fault) α
  | good a => .ok a
  | bad faults => .error faults

end Checked

end Assay.Schema

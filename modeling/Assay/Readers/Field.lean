import Assay.Datum.Display
import Assay.Problem
import Assay.Text.Blank
import Assay.Text.Classes

/-!
# Reading fields

What tools print in a field is not to be relied on. A whole number may come as a number or as a text
of digits, a text as anything; a field that is neither counts as missing, and one that only looks
right is a fault of its record.
-/

namespace Assay.Readers

/-- Why a record cannot be read. -/
inductive RecordFault where
  /-- The record says something that makes no sense; the text of the complaint. -/
  | badValue (text : String)
  /-- The record has a value of the wrong kind where another one is needed. -/
  | wrongKind
  /-- A number without end was to be made whole. This fault is not one of the record alone. -/
  | infiniteNumber
deriving Repr, DecidableEq

/-- The fault as a breach. -/
def RecordFault.breach : RecordFault → Breach
  | badValue text => .badValue text
  | wrongKind => .wrongKind
  | infiniteNumber => .infiniteNumber

/-- The reason that is noted for a record left out. -/
def RecordFault.reason : RecordFault → String
  | badValue text => "ValueError: " ++ text
  | wrongKind => "TypeError"
  | infiniteNumber => "OverflowError"

/-- The outcome of reading a part of a record. -/
abbrev Field (α : Type) := Except RecordFault α

/-- How much a complaint shows of a text, quotes included. -/
def maxShownLength : Nat := 200

/-- A text of digits of any script with at most one minus sign. -/
def readDigits (cs : List Char) : Field Int :=
  let complaint := RecordFault.badValue
    ("invalid literal for int() with base 10: " ++
      Text.take maxShownLength (Text.quoted (String.ofList cs)))
  let (negative, digits) := match cs with
    | '-' :: rest => (true, rest)
    | _ => (false, cs)
  if Decimal.maxWholeDigits < digits.length && digits.all Text.isDecimal then
    .error (.badValue (Decimal.tooManyDigits digits.length))
  else match Text.natOfDecimals? digits with
    | some n => .ok (if negative then -(n : Int) else n)
    | none => .error complaint

/-- A text is tried as a number if only minus signs stand before its digits. -/
def looksWhole (cs : List Char) : Bool :=
  let digits := cs.dropWhile (· == '-')
  !digits.isEmpty && digits.all Text.isDigit

/-- The whole number in a text. -/
def wholeOfText (s : String) : Field (Option Int) :=
  let cs := Text.trim s.toList
  if looksWhole cs then (readDigits cs).map some else .ok none

/-- The whole part of a double. -/
def wholeOfFloat (x : Float) : Field Int :=
  match Decimal.Reading.ofFloat x with
  | .finite b => .ok b.truncate
  | .infinite _ => .error .infiniteNumber
  | .notANumber => .error (.badValue "cannot convert float NaN to integer")

/-- The whole number in a field: that of a number, or of a text of digits. -/
def whole (d : Datum) : Field (Option Int) :=
  match d with
  | .int n => .ok (some n)
  | .float x => (wholeOfFloat x).map some
  | .text s => wholeOfText s
  | _ => .ok none

/-- The whole number in a text that may be missing. -/
def wholeOfText? (s : Option String) : Field (Option Int) :=
  match s with
  | some s => wholeOfText s
  | none => .ok none

/-- The text in a field: that of any value but null, unless it is blank. -/
def text (d : Datum) : Option String :=
  match d with
  | .null => none
  | d =>
    let s := d.display
    if Text.isBlankText s then none else some s

/-- The items that a field yields one by one: those of a list, the keys of a table, the characters of
a text. A field that counts as false yields none. -/
def items (d : Datum) : Field (List Datum) :=
  if !d.isTruthy then .ok []
  else match d with
    | .list ds => .ok ds
    | .table entries => .ok (entries.map fun e => .text e.1)
    | .text s => .ok (s.toList.map fun c => .text (String.ofList [c]))
    | _ => .error .wrongKind

/-- The texts of the items of a field that do not count as false. -/
def itemTexts (d : Datum) : Field (List String) :=
  (items d).map fun ds => (ds.filter Datum.isTruthy).map Datum.display

end Assay.Readers

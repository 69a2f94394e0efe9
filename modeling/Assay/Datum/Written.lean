import Assay.Datum.Display
import Assay.Decimal.Text
import Assay.Problem

/-!
# Data that are written out

A whole number has as many digits as it needs, but nothing writes more than `maxWholeDigits` of them out. So a
value has the text that it is displayed with, unless a whole number in it has too many digits.
-/

namespace Assay.Decimal

/-- The complaint about a whole number that has too many digits to be written out. -/
def overlong : Breach :=
  .badValue ("Exceeds the limit (" ++ natText maxWholeDigits ++
    " digits) for integer string conversion; use sys.set_int_max_str_digits() to increase the limit")

/-- The number has few enough digits to be written out. -/
def isWritable (n : Int) : Bool := n.natAbs < Nat.pow 10 maxWholeDigits

/-- The digits of a whole number, written out. -/
def written (n : Int) : Except Breach String := if isWritable n then .ok (intText n) else .error overlong

end Assay.Decimal

namespace Assay.Datum

mutual

/-- The value can be written out: no whole number in it has too many digits. -/
def isWritable : Datum → Bool
  | .int n => Decimal.isWritable n
  | .list items => areWritable items
  | .table entries => areWritableEntries entries
  | _ => true

/-- All items can be written out. -/
def areWritable : List Datum → Bool
  | [] => true
  | d :: rest => isWritable d && areWritable rest

/-- The values of all entries can be written out. -/
def areWritableEntries : List (String × Datum) → Bool
  | [] => true
  | (_, d) :: rest => isWritable d && areWritableEntries rest

end

/-- The text of a value inside a message. -/
def written (d : Datum) : Except Breach String := if d.isWritable then .ok d.shown else .error Decimal.overlong

/-- The text of a value that stands alone. -/
def told (d : Datum) : Except Breach String := if d.isWritable then .ok d.display else .error Decimal.overlong

end Assay.Datum

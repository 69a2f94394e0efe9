import Assay.Datum
import Assay.Decimal.Text
import Assay.Text.Quoted
import Assay.Text.Split

/-!
# Data as text

The text of a value inside a message or a joined line. A text stands for itself at the outside and is
quoted inside a list or a table.
-/

namespace Assay.Datum

mutual

/-- The text of a value that stands inside another one. -/
def shown : Datum → String
  | .null => "None"
  | .bool b => if b then "True" else "False"
  | .int n => Decimal.intText n
  | .float x => Decimal.floatText x
  | .text s => Text.quoted s
  | .list items => "[" ++ Text.join ", " (shownItems items) ++ "]"
  | .table entries => "\x7b" ++ Text.join ", " (shownEntries entries) ++ "\x7d"
  | .moment s => s

/-- The texts of the items of a list. -/
def shownItems : List Datum → List String
  | [] => []
  | d :: rest => shown d :: shownItems rest

/-- The texts of the entries of a table. -/
def shownEntries : List (String × Datum) → List String
  | [] => []
  | (k, v) :: rest => (Text.quoted k ++ ": " ++ shown v) :: shownEntries rest

end

/-- The text of a value that stands alone. -/
def display : Datum → String
  | .text s => s
  | d => d.shown

end Assay.Datum

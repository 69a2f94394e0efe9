import Assay.Decimal.Text
import Assay.Text.Blank
import Assay.Text.Classes
import Assay.Text.Split

/-!
# Reading doubles from free text

A numeral is a sign, digits around a point and a power of ten, all of them optional but one digit; or
the name of an infinity or of the value that is no number, in any case.
-/

namespace Assay.Decimal

/-- A sign, if there is one, and the rest. -/
def splitSign : List Char → Bool × List Char
  | '-' :: rest => (true, rest)
  | '+' :: rest => (false, rest)
  | rest => (false, rest)

/-- The power of ten that a text consists of, if it is one. Nothing stands for zero. -/
def powerOf? : List Char → Option Int
  | [] => some 0
  | c :: rest =>
    if c == 'e' || c == 'E' then
      let (negative, digits) := splitSign rest
      if !digits.isEmpty && digits.all isAsciiDigit then
        let n : Int := natOf digits
        some (if negative then -n else n)
      else none
    else none

/-- The double that a text without sign denotes in digits. -/
def unsigned? (negative : Bool) (cs : List Char) : Option Float := do
  let whole := cs.takeWhile isAsciiDigit
  let (fraction, rest) := match cs.drop whole.length with
    | '.' :: more => (more.takeWhile isAsciiDigit, more.dropWhile isAsciiDigit)
    | more => ([], more)
  if whole.isEmpty && fraction.isEmpty then none
  let power ← powerOf? rest
  return floatOfParts negative whole fraction power

/-- The double that a text of ASCII characters denotes. -/
def numeral? (cs : List Char) : Option Float :=
  let (negative, rest) := splitSign cs
  match String.ofList (rest.map Char.toLower) with
  | "inf" | "infinity" => some (if negative then -infinity else infinity)
  | "nan" => some notANumber
  | _ => unsigned? negative rest

/-- The text without underscores, which may only stand between two digits. -/
def withoutUnderscores? : (before : Option Char) → List Char → Option (List Char)
  | _, [] => some []
  | before, '_' :: rest =>
    if before.any isAsciiDigit && rest.head?.any isAsciiDigit then withoutUnderscores? none rest
    else none
  | _, c :: rest => (withoutUnderscores? (some c) rest).map (c :: ·)

/-- A decimal digit of any script as an ASCII digit. -/
def asciiDigit (c : Char) : Char :=
  match Text.decimalValue? c with
  | some n => Char.ofNat (48 + n)
  | none => c

/-- The double that a text denotes between blanks, with digits of any script and underscores between
digits. -/
def ofFreeText? (s : String) : Option Float := do
  numeral? (← withoutUnderscores? none ((Text.trim s.toList).map asciiDigit))

end Assay.Decimal

import Assay.Decimal.Shortest

/-!
# Numbers as text

How a double is written and read. A double is written with its shortest digits; it is positional from
`1e-04` up to below `1e16` and has an exponent of at least two digits elsewhere; a whole number keeps
`.0`. A decimal is read to the nearest double, ties to even.
-/

namespace Assay.Decimal

/-- The decimal digits of a number. -/
def natText (n : Nat) : String := String.ofList (Nat.toDigits 10 n)

/-- The decimal digits of a whole number, after a minus sign if it is negative. -/
def intText : Int → String
  | .ofNat n => natText n
  | .negSucc n => "-" ++ natText (n + 1)

/-- How doubles are written: the first and the last power of ten that are written positionally, the
least number of digits of an exponent, and the names of the values that are no numbers. -/
structure Style where
  firstPositional : Int
  lastPositional : Int
  exponentDigits : Nat
  infinityName : String
  nanName : String

/-- The style of every double in messages and documents. -/
def plainStyle : Style := ⟨-4, 15, 2, "inf", "nan"⟩

/-- A number padded with zeros in front to at least `width` digits. -/
def padded (width n : Nat) : String :=
  let s := natText n
  String.ofList (List.replicate (width - s.length) '0') ++ s

/-- Digits and a power of ten, written in a style. -/
def Scientific.text (style : Style) (s : Scientific) : String :=
  let ds := Nat.toDigits 10 s.digits
  let count : Nat := ds.length
  let point : Int := count + s.exponent
  let power := point - 1
  if style.firstPositional ≤ power && power ≤ style.lastPositional then
    if point ≤ 0 then "0." ++ String.ofList (List.replicate (-point).toNat '0' ++ ds)
    else if (count : Int) ≤ point then
      String.ofList (ds ++ List.replicate (point - count).toNat '0') ++ ".0"
    else String.ofList (ds.take point.toNat) ++ "." ++ String.ofList (ds.drop point.toNat)
  else
    let rest := ds.drop 1
    let mantissa := String.ofList (ds.take 1) ++ (if rest.isEmpty then "" else "." ++ String.ofList rest)
    mantissa ++ "e" ++ (if power < 0 then "-" else "+") ++ padded style.exponentDigits power.natAbs

/-- A double in a style. -/
def Reading.text (style : Style) : Reading → String
  | .notANumber => style.nanName
  | .infinite negative => (if negative then "-" else "") ++ style.infinityName
  | .finite b =>
    (if b.negative then "-" else "") ++ (if b.mantissa == 0 then "0.0" else b.shortest.text style)

/-- A double as it is written everywhere. -/
def floatText (x : Float) : String := (Reading.ofFloat x).text plainStyle

/-- The positive infinity. -/
def infinity : Float := Float.ofBits 0x7ff0000000000000

/-- The value that is no number. -/
def notANumber : Float := Float.ofBits 0x7ff8000000000000

/-- The double nearest to `digits · 10^exponent`. Powers of ten beyond every double are settled by
size alone, so a huge exponent costs nothing. -/
def floatOf (negative : Bool) (digits : Nat) (exponent : Int) : Float :=
  let size : Float :=
    if digits == 0 then 0.0
    else
      let power := (digitCount digits : Int) + exponent
      if power > 400 then infinity
      else if power < -400 then 0.0
      else if 0 ≤ exponent then Float.ofScientific (digits * Nat.pow 10 exponent.toNat) false 0
      else Float.ofScientific digits true (-exponent).toNat
  if negative then -size else size

/-- The number that a row of ASCII digits denotes. -/
def natOf (cs : List Char) : Nat := cs.foldl (fun n c => 10 * n + (c.toNat - 48)) 0

/-- Whole numbers are read from texts of at most so many digits. -/
def maxWholeDigits : Nat := 4300

/-- The complaint about a text of more digits than that. -/
def tooManyDigits (count : Nat) : String :=
  "Exceeds the limit (" ++ natText maxWholeDigits ++ " digits) for integer string conversion: value has " ++
    natText count ++ " digits; use sys.set_int_max_str_digits() to increase the limit"

/-- An ASCII digit. -/
def isAsciiDigit (c : Char) : Bool := '0' ≤ c && c ≤ '9'

/-- The double denoted by a whole part, the digits behind the point and a power of ten. -/
def floatOfParts (negative : Bool) (whole fraction : List Char) (power : Int) : Float :=
  floatOf negative (natOf (whole ++ fraction)) (power - fraction.length)

end Assay.Decimal

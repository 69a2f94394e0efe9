import Assay.Decimal.Numeral

/-!
# Moments

A moment is a date and a time of day, to the microsecond, with or without the offset of its clock. It
is kept as the microseconds since the start of 1970 on its own clock; two moments with offsets can be
subtracted.
-/

namespace Assay

/-- A moment on a clock. -/
structure Moment where
  /-- Microseconds since the start of 1970, as the clock shows them. -/
  shown : Int
  /-- By how many microseconds the clock is ahead, if that is known. -/
  offset : Option Int
deriving Repr, DecidableEq, Inhabited

namespace Moment

/-- The number of days from the start of 1970 to a date of the calendar, whose year is counted from
March so that the leap day comes last. -/
def daysOf (year month day : Nat) : Int :=
  let y : Int := if month ≤ 2 then (year : Int) - 1 else year
  let m : Nat := if month ≤ 2 then month + 9 else month - 3
  365 * y + y / 4 - y / 100 + y / 400 + (((153 * m + 2) / 5 + day : Nat) : Int) - 719469

/-- Every fourth year but three in four hundred. -/
def isLeap (year : Nat) : Bool := year % 4 == 0 && (year % 100 != 0 || year % 400 == 0)

/-- The number of days in a month. -/
def monthLength (year month : Nat) : Nat :=
  if month == 2 then (if isLeap year then 29 else 28)
  else if [4, 6, 9, 11].contains month then 30
  else 31

/-- The date a number of days after the start of 1970. -/
def dateOf (days : Int) : Int × Nat × Nat :=
  let z := days + 719468
  let era := z / 146097
  let dayOfEra : Nat := (z % 146097).toNat
  let yearOfEra : Nat := (dayOfEra - dayOfEra / 1460 + dayOfEra / 36524 - dayOfEra / 146096) / 365
  let dayOfYear : Nat := dayOfEra - (365 * yearOfEra + yearOfEra / 4 - yearOfEra / 100)
  let m : Nat := (5 * dayOfYear + 2) / 153
  let month : Nat := if m < 10 then m + 3 else m - 9
  let year := (yearOfEra : Int) + era * 400
  (if month ≤ 2 then year + 1 else year, month, dayOfYear - (153 * m + 2) / 5 + 1)

/-- The microseconds of a day. -/
def dayLength : Int := 86400000000

/-- The first moment of the year 1. -/
def first : Int := daysOf 1 1 1 * dayLength

/-- Why a value denotes no moment. -/
inductive Cause where
  | tooShort
  | yearCharacter
  | separator
  | monthCharacter
  | dayCharacter
  | monthRange
  | dayRange
  | extra
  /-- The years count from 1. -/
  | yearZero
  | tooEarly
  | tooLate
  | notANumber
deriving Repr, DecidableEq

/-- The text of a cause. -/
def Cause.text : Cause → String
  | tooShort => "input is too short"
  | yearCharacter => "invalid character in year"
  | separator => "invalid date separator, expected \x60-\x60"
  | monthCharacter => "invalid character in month"
  | dayCharacter => "invalid character in day"
  | monthRange => "month value is outside expected range of 1-12"
  | dayRange => "day value is outside expected range"
  | extra => "unexpected extra characters at the end of the input"
  | yearZero => "year 0 is out of range"
  | tooEarly => "dates before 0000 are not supported as unix timestamps"
  | tooLate => "dates after 9999 are not supported as unix timestamps"
  | notANumber => "NaN values not permitted"

/-- A number of exactly `n` ASCII digits, and the text after it. -/
def number? (n : Nat) (cs : List Char) : Option (Nat × List Char) :=
  let digits := cs.take n
  if digits.length == n && digits.all Decimal.isAsciiDigit then some (Decimal.natOf digits, cs.drop n)
  else none

/-- The days of a date at the start of a text, and the text after it. -/
def dateAt (cs : List Char) : Except Cause (Int × List Char) :=
  if cs.foldl (fun n c => n + c.utf8Size) 0 < 10 then .error .tooShort
  else
    match number? 4 cs with
    | none => .error .yearCharacter
    | some (year, rest) =>
      match rest with
      | '-' :: rest =>
        match number? 2 rest with
        | none => .error .monthCharacter
        | some (month, rest) =>
          match rest with
          | '-' :: rest =>
            match number? 2 rest with
            | none => .error .dayCharacter
            | some (day, rest) =>
              if month < 1 || 12 < month then .error .monthRange
              else if day < 1 || monthLength year month < day then .error .dayRange
              else .ok (daysOf year month day, rest)
          | _ => .error .separator
      | _ => .error .separator

/-- The microseconds that the digits after a decimal point stand for; digits beyond the sixth do not
count. -/
def microseconds (digits : List Char) : Nat :=
  Decimal.natOf ((digits ++ List.replicate 6 '0').take 6)

/-- The microseconds of a time of day at the start of a text, and the text after it. The seconds and
their fraction may be missing. -/
def timeAt? (cs : List Char) : Option (Int × List Char) := do
  let (hour, rest) ← number? 2 cs
  let ':' :: rest := rest | none
  let (minute, rest) ← number? 2 rest
  let (second, micros, rest) ← match rest with
    | ':' :: more => do
      let (second, after) ← number? 2 more
      match after with
      | mark :: fraction =>
        let digits := fraction.takeWhile Decimal.isAsciiDigit
        if mark != '.' && mark != ',' then some (second, 0, after)
        else if digits.isEmpty then none
        else some (second, microseconds digits, fraction.drop digits.length)
      | [] => some (second, 0, [])
    | _ => some (0, 0, rest)
  if 23 < hour || 59 < minute || 59 < second then none
  return (((hour * 3600 + minute * 60 + second) * 1000000 + micros : Nat), rest)

/-- The minus sign of mathematics. -/
def minus : Char := Char.ofNat 0x2212

/-- The offset that a text consists of; nothing stands for an unknown one. -/
def offset? : List Char → Option (Option Int)
  | [] => some none
  | ['Z'] | ['z'] => some (some 0)
  | sign :: rest =>
    if sign == '+' || sign == '-' || sign == minus then do
      let (hours, rest) ← number? 2 rest
      let (minutes, rest) ← number? 2 (if rest.head? == some ':' then rest.drop 1 else rest)
      if !rest.isEmpty || 23 < hours || 59 < minutes then none
      let micros : Int := (hours * 3600 + minutes * 60) * 1000000
      return some (if sign == '+' then micros else -micros)
    else none

/-- The moment that a date with or without a time of day denotes. A date alone is the start of its
day. -/
def ofDate (s : String) : Except Cause Moment :=
  match dateAt s.toList with
  | .error cause => .error cause
  | .ok (days, []) => .ok ⟨days * dayLength, none⟩
  | .ok (days, separator :: rest) =>
    if ['T', 't', ' ', '_'].contains separator then
      match timeAt? rest with
      | some (micros, rest) =>
        match offset? rest with
        | some offset => .ok ⟨days * dayLength + micros, offset⟩
        | none => .error .extra
      | none => .error .extra
    else .error .extra

/-- Up to this size a number counts seconds, and milliseconds beyond it. -/
def maxSeconds : Nat := 20000000000

/-- The moment a number of seconds or milliseconds, and some microseconds, after the start of 1970. -/
def ofCount (count : Int) (micros : Nat) : Except Cause Moment :=
  let shown := count * (if count.natAbs ≤ maxSeconds then 1000000 else 1000) + (micros : Int)
  if shown < daysOf 0 1 1 * dayLength then .error .tooEarly
  else if daysOf 10000 1 1 * dayLength ≤ shown then .error .tooLate
  else .ok ⟨shown, some 0⟩

/-- The moment that a double counts up to. -/
def ofFloat (x : Float) : Except Cause Moment :=
  let below := x.floor
  match Decimal.Reading.ofFloat below with
  | .finite b =>
    let unit := if x.abs ≤ Float.ofNat maxSeconds then 1000000.0 else 1000.0
    ofCount b.truncate ((x - below) * unit).round.toUInt64.toNat
  | .infinite negative => .error (if negative then .tooEarly else .tooLate)
  | .notANumber => .error .notANumber

/-- The moment that the number in a text counts up to, if the text is a number in digits. Only a number
with a point may have a power of ten. -/
def ofNumeral? (s : String) : Option (Except Cause Moment) :=
  let (negative, rest) := Decimal.splitSign s.toList
  let whole := rest.takeWhile Decimal.isAsciiDigit
  let n : Int := Decimal.natOf whole
  if Nat.pow 2 63 ≤ n.natAbs then none
  else match rest.drop whole.length with
    | [] => if whole.isEmpty then none else some (ofCount (if negative then -n else n) 0)
    | '.' :: _ => (Decimal.numeral? s.toList).map ofFloat
    | _ => none

/-- The moment that a text denotes as a date, or else as a number. -/
def ofText (s : String) : Except Cause Moment :=
  match ofDate s with
  | .ok m => .ok m
  | .error cause => (ofNumeral? s).getD (.error cause)

/-- The whole seconds nearest to a number of microseconds. -/
def nearestSeconds (micros : Int) : Nat := (micros.natAbs + 500000) / 1000000

/-- The offset of a clock, written out to the minute. -/
def offsetText : Option Int → String
  | none => ""
  | some micros =>
    let seconds := nearestSeconds micros
    let minutes := seconds / 60
    if seconds == 0 then "Z"
    else (if micros < 0 then "-" else "+") ++ Decimal.padded 2 (minutes / 60) ++ ":" ++
      Decimal.padded 2 (minutes % 60)

/-- The moment as date and time, with a fraction of a second only if there is one. -/
def text (m : Moment) : String :=
  let days := m.shown / dayLength
  let micros : Nat := (m.shown % dayLength).toNat
  let (year, month, day) := dateOf days
  let seconds := micros / 1000000
  let fraction := micros % 1000000
  Decimal.padded 4 year.toNat ++ "-" ++ Decimal.padded 2 month ++ "-" ++ Decimal.padded 2 day ++ "T" ++
    Decimal.padded 2 (seconds / 3600) ++ ":" ++ Decimal.padded 2 (seconds / 60 % 60) ++ ":" ++
    Decimal.padded 2 (seconds % 60) ++
    (if fraction == 0 then "" else "." ++ Decimal.padded 6 fraction) ++ offsetText m.offset

/-- The microseconds from one moment to another; unknown if only one clock has a known offset. -/
def microsecondsTo? (start finish : Moment) : Option Int :=
  match start.offset, finish.offset with
  | some a, some b => some ((finish.shown - b) - (start.shown - a))
  | none, none => some (finish.shown - start.shown)
  | _, _ => none

/-- The whole milliseconds in a number of microseconds, computed in doubles from the number of seconds;
never negative. -/
def milliseconds (micros : Int) : Nat :=
  let size := micros.natAbs
  let seconds := Decimal.floatOf (micros < 0) size (-6)
  match Decimal.Reading.ofFloat (seconds * 1000.0) with
  | .finite b => b.truncate.toNat
  | _ => 0

/-- The moment that a clock shows, by the microseconds since the start of 1970, without any offset from
universal time. -/
def ofClock (micros : Nat) : Moment := ⟨micros, some 0⟩

end Moment

end Assay

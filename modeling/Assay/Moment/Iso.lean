import Assay.Moment
import Assay.Problem
import Assay.Text.Utf8

/-!
# Moments in the notation of ISO 8601

A date is a year with month and day or with week and weekday, with or without dashes. Any one character
may stand between it and the time of day, which has colons or none and of which everything behind the
hours may be missing. An offset follows in the same notation, or a `Z`.

`Moment.ofIso` is forgiving where the notation is ambiguous, and it does not look at what follows the
sixth digit of a fraction if an offset comes after it.
-/

namespace Assay.Moment

/-- The character at the start of a text, the null character for none. -/
def peek (cs : List Char) : Char := cs.headD (Char.ofNat 0)

/-- The character at a place of a text, the null character for none. -/
def charAt (cs : List Char) (place : Nat) : Char := peek (cs.drop place)

/-! ## Dates -/

/-- How long the date at the start of a text is, judged by the characters that tell its forms apart.
A dash behind a week is taken to begin the time of day if two digits follow it. -/
def dateLength (cs : List Char) : Nat :=
  let length := cs.length
  if length == 7 then 7
  else if charAt cs 4 == '-' then
    if charAt cs 5 == 'W' then
      if 8 < length && charAt cs 8 == '-' then
        if 10 < length && Decimal.isAsciiDigit (charAt cs 10) then 8 else 10
      else 8
    else 10
  else if charAt cs 4 == 'W' then
    let place := 7 + ((cs.drop 7).takeWhile Decimal.isAsciiDigit).length
    if place < 9 then place else if place % 2 == 0 then 7 else 8
  else 8

/-- The weekday of the first of January, from Monday as 0. -/
def firstWeekday (year : Nat) : Nat := ((daysOf year 1 1 + 3) % 7).toNat

/-- The day on which the first week of a year begins, that with the first Thursday. -/
def firstMonday (year : Nat) : Int :=
  let weekday := firstWeekday year
  let monday := daysOf year 1 1 - weekday
  if 3 < weekday then monday + 7 else monday

/-- How many weeks a year has. -/
def weekCount (year : Nat) : Nat :=
  let weekday := firstWeekday year
  if weekday == 3 || (weekday == 2 && isLeap year) then 53 else 52

/-- A date before it is known to exist. -/
structure DateParts where
  year : Nat
  month : Nat
  day : Nat

/-- The date of a weekday, from Monday as 1. The year before the first has no months. -/
def ofWeek? (year week weekday : Nat) : Option DateParts :=
  if week < 1 || weekCount year < week || weekday < 1 || 7 < weekday then none
  else if year < 1 then some ⟨1, 0, 0⟩
  else
    let (year, month, day) := dateOf (firstMonday year + ((week - 1) * 7 + weekday - 1 : Nat))
    some ⟨year.toNat, month, day⟩

/-- The date at the start of a text, which has the given length. -/
def dateParts? (cs : List Char) (length : Nat) : Option DateParts := do
  let (year, rest) ← number? 4 cs
  let dashed := peek rest == '-'
  let rest := if dashed then rest.drop 1 else rest
  if peek rest == 'W' then
    let (week, rest) ← number? 2 (rest.drop 1)
    if cs.length - rest.length < length then
      if dashed && peek rest != '-' then none
      let (weekday, _) ← number? 1 (if dashed then rest.drop 1 else rest)
      ofWeek? year week weekday
    else ofWeek? year week 1
  else
    let (month, rest) ← number? 2 rest
    if dashed && peek rest != '-' then none
    let (day, _) ← number? 2 (if dashed then rest.drop 1 else rest)
    return ⟨year, month, day⟩

/-! ## Times of day -/

/-- A time of day or an offset, before it is known to exist. `goesOn` says that its text is not at its end. -/
structure ClockParts where
  hour : Nat := 0
  minute : Nat := 0
  second : Nat := 0
  micros : Nat := 0
  goesOn : Bool := false

/-- The parts with one more read: hours, minutes, seconds in this order. -/
def ClockParts.set (p : ClockParts) (place n : Nat) : ClockParts :=
  match place with
  | 0 => { p with hour := n }
  | 1 => { p with minute := n }
  | _ => { p with second := n }

/-- The fraction of a second, of which `left` characters are up to the end. -/
def fraction? (p : ClockParts) (cs : List Char) (left : Nat) : Option ClockParts := do
  let count := min left 6
  let (n, rest) ← number? count cs
  let next := peek (rest.dropWhile Decimal.isAsciiDigit)
  return { p with micros := n * Nat.pow 10 (6 - count), goesOn := next != Char.ofNat 0 }

/-- The parts of a time from a place on; `left` characters are up to its end. What follows the seconds
is a fraction, whatever stands between. -/
def clockFrom (p : ClockParts) (colons : Bool) :
    (fuel place : Nat) → List Char → (left : Nat) → Option ClockParts
  | 0, _, cs, left => fraction? p cs left
  | fuel + 1, place, cs, left => do
    let (n, rest) ← number? 2 cs
    let p := p.set place n
    let next := peek rest
    let colons := if place == 0 then next == ':' else colons
    if left ≤ 3 then return { p with goesOn := next != Char.ofNat 0 }
    else if colons && next == ':' then clockFrom p colons fuel (place + 1) (rest.drop 1) (left - 3)
    else if next == '.' || next == ',' then fraction? p (rest.drop 1) (left - 3)
    else if colons then none
    else clockFrom p colons fuel (place + 1) rest (left - 2)

/-- The parts of a time of day or an offset. -/
def clockParts? (cs : List Char) (left : Nat) : Option ClockParts := clockFrom {} true 3 0 cs left

/-- The mark of an offset. -/
def isOffsetMark (c : Char) : Bool := c == '+' || c == '-' || c == 'Z'

/-- The microseconds by which a clock is ahead; an offset of less than a second does not count. -/
def offsetMicros (ahead : Bool) (p : ClockParts) : Int :=
  let seconds : Int := p.hour * 3600 + p.minute * 60 + p.second
  let micros := if seconds == 0 then 0 else seconds * 1000000 + p.micros
  if ahead then micros else -micros

/-- A time of day, and the offset behind it. -/
def timeParts? (cs : List Char) : Option (ClockParts × Option Int) := do
  let length := (cs.takeWhile fun c => !isOffsetMark c).length
  let p ← clockParts? cs length
  match cs.drop length with
  | [] => if p.goesOn then none else return (p, none)
  | mark :: rest =>
    if mark == 'Z' then if peek rest == Char.ofNat 0 then return (p, some 0) else none
    else
      let o ← clockParts? rest rest.length
      if o.goesOn then none else return (p, some (offsetMicros (mark == '+') o))

/-! ## Moments -/

/-- A span of time, written out with its days, seconds and microseconds. -/
def spanText (micros : Int) : String :=
  let days := micros / dayLength
  let rest := micros % dayLength
  let part := fun (name : String) (n : Int) => if n == 0 then [] else [name ++ "=" ++ Decimal.intText n]
  let parts := part "days" days ++ part "seconds" (rest / 1000000) ++
    part "microseconds" (rest % 1000000)
  "datetime.timedelta(" ++ (if parts.isEmpty then "0" else Text.join ", " parts) ++ ")"

/-- What is wrong with a moment whose parts could be read. -/
def complaint? (d : DateParts) (p : ClockParts) (offset : Option Int) : Option String :=
  if offset.any fun micros => dayLength ≤ micros.natAbs then
    some ("offset must be a timedelta strictly between -timedelta(hours=24) and timedelta(hours=24), not " ++
      spanText (offset.getD 0) ++ ".")
  else if d.year < 1 || 9999 < d.year then some ("year " ++ Decimal.natText d.year ++ " is out of range")
  else if d.month < 1 || 12 < d.month then some "month must be in 1..12"
  else if d.day < 1 || monthLength d.year d.month < d.day then some "day is out of range for month"
  else if 23 < p.hour then some "hour must be in 0..23"
  else if 59 < p.minute then some "minute must be in 0..59"
  else if 59 < p.second then some "second must be in 0..59"
  else none

/-- The bytes of a text, each as a character. Lengths and places are those of bytes. -/
def octets (s : String) : List Char := (Text.Utf8.encode s).map fun b => Char.ofNat b.toNat

/-- How many bytes the character has that a byte begins. -/
def octetCount (c : Char) : Nat :=
  if c.toNat < 0x80 then 1 else if c.toNat / 16 == 14 then 3 else if c.toNat / 16 == 15 then 4 else 2

/-- The parts that a text names. -/
def parts? (cs : List Char) : Option (DateParts × ClockParts × Option Int) := do
  if cs.length < 7 then none
  let length := dateLength cs
  let d ← dateParts? cs length
  if cs.length ≤ length then return (d, {}, none)
  let (p, offset) ← timeParts? (cs.drop (length + octetCount (charAt cs length)))
  return (d, p, offset)

/-- The moment that a text names. -/
def ofIso (s : String) : Except Breach Moment :=
  match parts? (octets s) with
  | none => .error (.badValue ("Invalid isoformat string: " ++ Text.quoted s))
  | some (d, p, offset) =>
    match complaint? d p offset with
    | some text => .error (.badValue text)
    | none =>
      let seconds : Nat := p.hour * 3600 + p.minute * 60 + p.second
      .ok ⟨daysOf d.year d.month d.day * dayLength + (seconds * 1000000 + p.micros : Nat), offset⟩

end Assay.Moment

import Assay.Moment
import Assay.Toml.Nest

/-!
# Values of TOML

Strings, truth values, numbers in four bases, dates and times, lists, and tables on one line.
-/

namespace Assay.Toml

/-! ## Numbers -/

/-- The digits that follow, of which two neighbours may have an underscore between them; the
underscores are left out. -/
def digitsFrom (isDigit : Char → Bool) : List Char → List Char × List Char
  | c :: rest =>
    if isDigit c then
      let (more, after) := digitsFrom isDigit rest
      (c :: more, after)
    else match c, rest with
      | '_', d :: _ =>
        if isDigit d then digitsFrom isDigit rest else ([], c :: rest)
      | _, _ => ([], c :: rest)
  | [] => ([], [])

/-- Digits, the first of which comes at once. -/
def digits? (isDigit : Char → Bool) (cs : List Char) : Option (List Char × List Char) :=
  match cs with
  | c :: _ => if isDigit c then some (digitsFrom isDigit cs) else none
  | [] => none

/-- The number that digits of a base make up. -/
def numberIn (base : Nat) (digits : List Char) : Nat :=
  digits.foldl (fun n c => base * n + (Json.hexValue? c).getD 0) 0

/-- A digit of a base up to sixteen. -/
def isDigitIn (base : Nat) (c : Char) : Bool :=
  match Json.hexValue? c with
  | some d => d < base
  | none => false

/-- The bases other than ten, by the letters that announce them. -/
def baseOf? : Char → Option Nat
  | 'x' => some 16
  | 'o' => some 8
  | 'b' => some 2
  | _ => none

/-- A number in another base than ten. -/
def basedNumber? : List Char → Option (Datum × List Char)
  | '0' :: letter :: rest => do
    let base ← baseOf? letter
    let (digits, after) ← digits? (isDigitIn base) rest
    return (.int (numberIn base digits), after)
  | _ => none

/-- The digits behind a point, if there are any. -/
def fractionAt (cs : List Char) : Option (List Char × List Char) :=
  match cs with
  | '.' :: rest => digits? Decimal.isAsciiDigit rest
  | _ => none

/-- A power of ten, if there is one. -/
def powerAt (cs : List Char) : Option (Int × List Char) :=
  match cs with
  | c :: rest =>
    if c == 'e' || c == 'E' then
      let (negative, rest) := match rest with
        | '-' :: more => (true, more)
        | '+' :: more => (false, more)
        | more => (false, more)
      (digits? Decimal.isAsciiDigit rest).map fun (ds, after) =>
        let n : Int := Decimal.natOf ds
        (if negative then -n else n, after)
    else none
  | [] => none

/-- The digits of a whole number: a zero alone, or digits that start with no zero. -/
def wholeAt (cs : List Char) : Option (List Char × List Char) :=
  match cs with
  | '0' :: rest => some (['0'], rest)
  | cs => digits? Decimal.isAsciiDigit cs

/-- A number to the base of ten after its sign. -/
def unsignedNumber? (negative : Bool) (cs : List Char) : Option (Except Fault (Datum × List Char)) := do
  let (whole, rest) ← wholeAt cs
  let (fraction, broken, rest) := match fractionAt rest with
    | some (ds, after) => (ds, true, after)
    | none => ([], false, rest)
  let (power, broken, rest) := match powerAt rest with
    | some (n, after) => (n, true, after)
    | none => (0, broken, rest)
  if broken then return .ok (.float (Decimal.floatOfParts negative whole fraction power), rest)
  else if Decimal.maxWholeDigits < whole.length then return .error (.tooLong whole.length)
  else
    let n : Int := Decimal.natOf whole
    return .ok (.int (if negative then -n else n), rest)

/-- A sign, if there is one, and the text after it. -/
def signAt : List Char → Option Bool × List Char
  | '-' :: rest => (some true, rest)
  | '+' :: rest => (some false, rest)
  | cs => (none, cs)

/-- The names of the doubles that have no digits. -/
def namedNumber? (cs : List Char) : Option (Datum × List Char) :=
  let (sign, rest) := signAt cs
  let negate (x : Float) := if sign == some true then -x else x
  match rest with
  | 'i' :: 'n' :: 'f' :: after => some (.float (negate Decimal.infinity), after)
  | 'n' :: 'a' :: 'n' :: after => some (.float Decimal.notANumber, after)
  | _ => none

/-- A number of any form. -/
def number (cs : List Char) : Step Datum :=
  match basedNumber? cs with
  | some found => .ok found
  | none =>
    let (sign, rest) := signAt cs
    match unsignedNumber? (sign == some true) rest with
    | some found => found
    | none =>
      match namedNumber? cs with
      | some found => .ok found
      | none => .error .invalid

/-! ## Dates and times -/

/-- A time of day: hours, minutes, seconds, and up to six digits of a fraction, further ones being
passed over. The text of the time comes with it. -/
def timeText? (cs : List Char) : Option (String × List Char) := do
  let (hour, rest) ← Moment.number? 2 cs
  let ':' :: rest := rest | none
  let (minute, rest) ← Moment.number? 2 rest
  let ':' :: rest := rest | none
  let (second, rest) ← Moment.number? 2 rest
  if 23 < hour || 59 < minute || 59 < second then none
  let plain := Decimal.padded 2 hour ++ ":" ++ Decimal.padded 2 minute ++ ":" ++ Decimal.padded 2 second
  match rest with
  | '.' :: more =>
    let digits := more.takeWhile Decimal.isAsciiDigit
    if digits.isEmpty then return (plain, rest)
    else
      let micros := Moment.microseconds digits
      let shown := if micros == 0 then plain else plain ++ "." ++ Decimal.padded 6 micros
      return (shown, more.drop digits.length)
  | rest => return (plain, rest)

/-- The offset of a clock. -/
def offsetText? : List Char → Option (String × List Char)
  | 'Z' :: rest | 'z' :: rest => some ("Z", rest)
  | sign :: rest => do
    if sign != '+' && sign != '-' then none
    let (hours, rest) ← Moment.number? 2 rest
    let ':' :: rest := rest | none
    let (minutes, rest) ← Moment.number? 2 rest
    if 23 < hours || 59 < minutes then none
    let shown := String.ofList [sign] ++ Decimal.padded 2 hours ++ ":" ++ Decimal.padded 2 minutes
    return (if hours == 0 && minutes == 0 then "Z" else shown, rest)
  | [] => none

/-- The numbers of a date: a year, a month, and a day up to the thirty-first. -/
def dateNumbers? (cs : List Char) : Option ((Nat × Nat × Nat) × List Char) := do
  let (year, rest) ← Moment.number? 4 cs
  let '-' :: rest := rest | none
  let (month, rest) ← Moment.number? 2 rest
  let '-' :: rest := rest | none
  let (day, rest) ← Moment.number? 2 rest
  if month < 1 || 12 < month || day < 1 || 31 < day then none
  return ((year, month, day), rest)

/-- The time and the offset that may follow a date. -/
def timeAfterDate? : List Char → Option (String × List Char)
  | separator :: rest => do
    if !(['T', 't', ' '].contains separator) then none
    let (time, rest) ← timeText? rest
    match offsetText? rest with
    | some (offset, after) => return ("T" ++ time ++ offset, after)
    | none => return ("T" ++ time, rest)
  | [] => none

/-- A date, with a time if one follows; it has to be one of the calendar. -/
def date? (cs : List Char) : Option (Except Fault (Datum × List Char)) := do
  let ((year, month, day), rest) ← dateNumbers? cs
  if year == 0 || Moment.monthLength year month < day then return .error .invalid
  let date := Decimal.padded 4 year ++ "-" ++ Decimal.padded 2 month ++ "-" ++ Decimal.padded 2 day
  match timeAfterDate? rest with
  | some (time, after) => return .ok (.moment (date ++ time), after)
  | none => return .ok (.moment date, rest)

/-- A date, a time, or a number. -/
def bare (cs : List Char) : Step Datum :=
  match date? cs with
  | some found => found
  | none =>
    match timeText? cs with
    | some (time, rest) => .ok (.moment time, rest)
    | none => number cs

/-! ## Lists and tables -/

/-- The text after blanks, line feeds and comments. -/
def skipLines : (fuel : Nat) → List Char → Except Fault (List Char)
  | 0, cs => .ok cs
  | fuel + 1, cs =>
    let rest := cs.dropWhile isSpaceOrFeed
    match rest with
    | '#' :: _ => do skipLines fuel (← skipComment rest)
    | _ => .ok rest

/-- The text after blanks, line feeds and comments. -/
def skipBlankLines (cs : List Char) : Except Fault (List Char) := skipLines (cs.length + 1) cs

/-- The items of a list from the first one on. -/
def itemsFrom (value : List Char → Step Datum) :
    (fuel : Nat) → List Datum → List Char → Except Fault (List Datum × List Char)
  | 0, _, _ => .error .invalid
  | fuel + 1, acc, cs => do
    let (d, rest) ← value cs
    match ← skipBlankLines rest with
    | ']' :: after => return ((d :: acc).reverse, after)
    | ',' :: after =>
      match ← skipBlankLines after with
      | ']' :: after => return ((d :: acc).reverse, after)
      | more => itemsFrom value fuel (d :: acc) more
    | _ => throw .invalid

/-- A list whose opening bracket has been read. -/
def list (value : List Char → Step Datum) (cs : List Char) : Except Fault (Datum × List Char) := do
  match ← skipBlankLines cs with
  | ']' :: after => return (.list [], after)
  | more =>
    let (items, after) ← itemsFrom value (more.length + 1) [] more
    return (.list items, after)

/-- A key, an equals sign, and a value. -/
def pair (value : List Char → Step Datum) (cs : List Char) :
    Except Fault ((Key × Datum) × List Char) := do
  match ← key cs with
  | (k, '=' :: rest) =>
    let (d, after) ← value (skipSpace rest)
    return ((k, d), after)
  | _ => throw .invalid

/-- The entries of a table on one line from the first one on. -/
def entriesFrom (value : List Char → Step Datum) :
    (fuel : Nat) → Closed → Entries → List Char → Except Fault (Entries × List Char)
  | 0, _, _, _ => .error .invalid
  | fuel + 1, closed, es, cs => do
    let ((k, d), rest) ← pair value cs
    if closed.isFrozen k then throw .invalid
    match es.assign false k d with
    | none => throw .invalid
    | some es =>
      match skipSpace rest with
      | '}' :: after => return (es, after)
      | ',' :: after =>
        entriesFrom value fuel (if isContainer d then closed.freeze k else closed) es (skipSpace after)
      | _ => throw .invalid

/-- A table on one line whose opening brace has been read. -/
def inlineTable (value : List Char → Step Datum) (cs : List Char) : Step Datum :=
  match skipSpace cs with
  | '}' :: after => .ok (.table [], after)
  | more => (entriesFrom value (more.length + 1) {} [] more).map fun (es, after) => (.table es, after)

/-- A value that holds no other one. -/
def scalar : List Char → Step Datum
  | '"' :: '"' :: '"' :: rest => (longBasic rest).map fun (s, after) => (.text s, after)
  | '"' :: rest => (basic rest).map fun (s, after) => (.text s, after)
  | '\'' :: '\'' :: '\'' :: rest => (longLiteral rest).map fun (s, after) => (.text s, after)
  | '\'' :: rest => (literal rest).map fun (s, after) => (.text s, after)
  | 't' :: 'r' :: 'u' :: 'e' :: rest => .ok (.bool true, rest)
  | 'f' :: 'a' :: 'l' :: 's' :: 'e' :: rest => .ok (.bool false, rest)
  | cs => bare cs

/-- Values may stand in each other to this depth. -/
def maxDepth : Nat := 450

/-- A value in which at most `depth` levels are nested. -/
def valueWithin : (depth : Nat) → List Char → Step Datum
  | 0, cs =>
    match cs with
    | '[' :: _ | '{' :: _ => .error .tooDeep
    | cs => scalar cs
  | depth + 1, cs =>
    match cs with
    | '[' :: rest => list (valueWithin depth) rest
    | '{' :: rest => inlineTable (valueWithin depth) rest
    | cs => scalar cs

/-- A value. -/
def value (cs : List Char) : Step Datum := valueWithin maxDepth cs

end Assay.Toml

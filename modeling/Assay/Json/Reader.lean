import Assay.Datum
import Assay.Decimal.Text
import Assay.Text.Blank
import Assay.Text.Quoted

/-!
# Reading JSON

`Json.read?` reads one JSON value that makes up a whole text. Beside the standard it takes `NaN`,
`Infinity` and `-Infinity`; a number with a point or an exponent is a double, every other one a whole
number of any size up to `Decimal.maxWholeDigits` digits; of a repeated key the last value counts. A
failure names its cause and the text that was left at the place where it was found, from which its
line follows.
-/

namespace Assay.Json

/-- Why a text is not JSON. -/
inductive Cause where
  | value
  | propertyName
  | colon
  | comma
  | unterminatedString
  | controlCharacter
  | escape
  | unicodeEscape
  | extraData
  | byteOrderMark
  | tooDeep
  /-- A whole number with more digits than are read. -/
  | tooLong (digits : Nat)
deriving Repr, DecidableEq

/-- The text of a cause. -/
def Cause.text : Cause → String
  | .value => "Expecting value"
  | .propertyName => "Expecting property name enclosed in double quotes"
  | .colon => "Expecting ':' delimiter"
  | .comma => "Expecting ',' delimiter"
  | .unterminatedString => "Unterminated string starting at"
  | .controlCharacter => "Invalid control character at"
  | .escape => "Invalid \\escape"
  | .unicodeEscape => "Invalid \\uXXXX escape"
  | .extraData => "Extra data"
  | .byteOrderMark => "Unexpected UTF-8 BOM (decode using utf-8-sig)"
  | .tooDeep => "JSON document nested too deeply"
  | .tooLong digits => Decimal.tooManyDigits digits

/-- A failure: its cause and the text from the place where it was found. -/
structure Failure where
  cause : Cause
  rest : List Char
deriving Repr

/-- The line of a failure in the whole text, from one. -/
def Failure.line (f : Failure) (whole : List Char) : Nat :=
  1 + (whole.count '\n' - f.rest.count '\n')

/-- The text of a failure with its place in the whole text: the line and the column, from one, and how
many characters stand in front. -/
def Failure.placed (f : Failure) (whole : List Char) : String :=
  let before := whole.take (whole.length - f.rest.length)
  let column := (before.reverse.takeWhile (· != '\n')).length + 1
  f.cause.text ++ ": line " ++ toString (f.line whole) ++ " column " ++ toString column ++ " (char " ++
    toString before.length ++ ")"

/-- The text for a list or table that is nested too deeply to be read, which `rest` begins with. -/
def depthText (rest : List Char) : String :=
  let kind := if rest.head? == some '[' then "array" else "object"
  "maximum recursion depth exceeded while decoding a JSON " ++ kind ++ " from a unicode string"

/-- The outcome of reading a part of a text: the part and the text after it. -/
abbrev Step (α : Type) := Except Failure (α × List Char)

/-- Lists and tables may stand in each other to this depth. -/
def maxDepth : Nat := 990

/-- The four blanks of the format. -/
def isSpace (c : Char) : Bool := c == ' ' || c == '\t' || c == '\n' || c == '\r'

/-- The text after the blanks at its start. -/
def skipSpace (cs : List Char) : List Char := cs.dropWhile isSpace

/-- The value of a hexadecimal digit. -/
def hexValue? (c : Char) : Option Nat :=
  if '0' ≤ c && c ≤ '9' then some (c.toNat - 48)
  else if 'a' ≤ c && c ≤ 'f' then some (c.toNat - 87)
  else if 'A' ≤ c && c ≤ 'F' then some (c.toNat - 55)
  else none

/-- The value of four hexadecimal digits at the start of a text, with at least one character behind
them. -/
def hexFour? : List Char → Option (Nat × List Char)
  | a :: b :: c :: d :: e :: rest => do
    let n := 4096 * (← hexValue? a) + 256 * (← hexValue? b) + 16 * (← hexValue? c) + (← hexValue? d)
    return (n, e :: rest)
  | _ => none

/-- The character of a short escape. -/
def shortEscape? : Char → Option Char
  | '"' => some '"'
  | '\\' => some '\\'
  | '/' => some '/'
  | 'b' => some '\x08'
  | 'f' => some '\x0c'
  | 'n' => some '\n'
  | 'r' => some '\r'
  | 't' => some '\t'
  | _ => none

/-- The character of a code unit and the text after it. Two units that make up one character are
taken together. No `Char` is half of such a pair, so half of one alone becomes the replacement character, and
documents that differ in such halves only are read alike. -/
def unitChar (n : Nat) (rest : List Char) : Except Failure (Char × List Char) :=
  if 0xd800 ≤ n && n < 0xdc00 then
    match rest with
    | '\\' :: 'u' :: more =>
      match hexFour? more with
      | none => .error ⟨.unicodeEscape, 'u' :: more⟩
      | some (m, after) =>
        if 0xdc00 ≤ m && m < 0xe000 then
          .ok (Char.ofNat (0x10000 + 0x400 * (n - 0xd800) + (m - 0xdc00)), after)
        else .ok ('\ufffd', rest)
    | _ => .ok ('\ufffd', rest)
  else if 0xdc00 ≤ n && n < 0xe000 then .ok ('\ufffd', rest)
  else .ok (Char.ofNat n, rest)

/-- The rest of a string after its opening quote. `start` is the text from that quote on, and `acc`
holds the characters read so far in reverse. -/
def stringFrom (start : List Char) : (fuel : Nat) → List Char → List Char → Step String
  | 0, _, _ => .error ⟨.unterminatedString, start⟩
  | _ + 1, _, [] => .error ⟨.unterminatedString, start⟩
  | _ + 1, acc, '"' :: rest => .ok (String.ofList acc.reverse, rest)
  | _ + 1, _, ['\\'] => .error ⟨.unterminatedString, start⟩
  | fuel + 1, acc, '\\' :: 'u' :: rest =>
    match hexFour? rest with
    | none => .error ⟨.unicodeEscape, 'u' :: rest⟩
    | some (n, more) =>
      match unitChar n more with
      | .error e => .error e
      | .ok (c, after) => stringFrom start fuel (c :: acc) after
  | fuel + 1, acc, '\\' :: c :: rest =>
    match shortEscape? c with
    | none => .error ⟨.escape, '\\' :: c :: rest⟩
    | some d => stringFrom start fuel (d :: acc) rest
  | fuel + 1, acc, c :: rest =>
    if c.toNat < 32 then .error ⟨.controlCharacter, c :: rest⟩
    else stringFrom start fuel (c :: acc) rest

/-- A string whose opening quote has been read. -/
def string (rest : List Char) : Step String := stringFrom ('"' :: rest) (rest.length + 1) [] rest

/-- The digits at the start of a text and the text after them. -/
def spanDigits (cs : List Char) : List Char × List Char :=
  (cs.takeWhile Decimal.isAsciiDigit, cs.dropWhile Decimal.isAsciiDigit)

/-- The digits behind a point, if a point with at least one digit comes next. -/
def fraction? : List Char → Option (List Char × List Char)
  | '.' :: rest =>
    match spanDigits rest with
    | ([], _) => none
    | found => some found
  | _ => none

/-- The power of ten, if an exponent mark with at least one digit comes next. -/
def exponent? : List Char → Option (Int × List Char)
  | c :: rest =>
    if c == 'e' || c == 'E' then
      let (negative, rest) := match rest with
        | '-' :: more => (true, more)
        | '+' :: more => (false, more)
        | more => (false, more)
      match spanDigits rest with
      | ([], _) => none
      | (ds, more) =>
        let n : Int := Decimal.natOf ds
        some (if negative then -n else n, more)
    else none
  | [] => none

/-- The whole digits of a number: a single zero, or digits that start with no zero. -/
def wholeDigits? : List Char → Option (List Char × List Char)
  | '0' :: rest => some (['0'], rest)
  | cs =>
    match spanDigits cs with
    | ([], _) => none
    | found => some found

/-- A number after its sign. `start` is the text from the sign on. -/
def number (start : List Char) (negative : Bool) (cs : List Char) : Step Datum :=
  match wholeDigits? cs with
  | none => .error ⟨.value, start⟩
  | some (whole, rest) =>
    let (fraction, isFloat, rest) := match fraction? rest with
      | some (ds, more) => (ds, true, more)
      | none => ([], false, rest)
    let (power, isFloat, rest) := match exponent? rest with
      | some (n, more) => (n, true, more)
      | none => (0, isFloat, rest)
    if isFloat then .ok (.float (Decimal.floatOfParts negative whole fraction power), rest)
    else if whole.length > Decimal.maxWholeDigits then .error ⟨.tooLong whole.length, rest⟩
    else
      let n : Int := Decimal.natOf whole
      .ok (.int (if negative then -n else n), rest)

/-- A value that holds no other one. -/
def scalar : List Char → Step Datum
  | '"' :: rest => (string rest).map fun (s, after) => (.text s, after)
  | 'n' :: 'u' :: 'l' :: 'l' :: rest => .ok (.null, rest)
  | 't' :: 'r' :: 'u' :: 'e' :: rest => .ok (.bool true, rest)
  | 'f' :: 'a' :: 'l' :: 's' :: 'e' :: rest => .ok (.bool false, rest)
  | 'N' :: 'a' :: 'N' :: rest => .ok (.float Decimal.notANumber, rest)
  | 'I' :: 'n' :: 'f' :: 'i' :: 'n' :: 'i' :: 't' :: 'y' :: rest => .ok (.float Decimal.infinity, rest)
  | '-' :: 'I' :: 'n' :: 'f' :: 'i' :: 'n' :: 'i' :: 't' :: 'y' :: rest =>
    .ok (.float (-Decimal.infinity), rest)
  | '-' :: rest => number ('-' :: rest) true rest
  | cs => number cs false cs

/-- The items of a list from the first one on, each read by `item`. -/
def itemsFrom (item : List Char → Step Datum) :
    (fuel : Nat) → List Datum → List Char → Step (List Datum)
  | 0, _, cs => .error ⟨.comma, cs⟩
  | fuel + 1, acc, cs =>
    match item cs with
    | .error e => .error e
    | .ok (d, rest) =>
      match skipSpace rest with
      | ']' :: after => .ok ((d :: acc).reverse, after)
      | ',' :: after => itemsFrom item fuel (d :: acc) (skipSpace after)
      | other => .error ⟨.comma, other⟩

/-- A list whose opening bracket has been read. -/
def list (item : List Char → Step Datum) (rest : List Char) : Step Datum :=
  match skipSpace rest with
  | ']' :: after => .ok (.list [], after)
  | cs => (itemsFrom item (cs.length + 1) [] cs).map fun (items, after) => (.list items, after)

/-- The entries of a table from the first key on, each value read by `item`. -/
def entriesFrom (item : List Char → Step Datum) :
    (fuel : Nat) → List (String × Datum) → List Char → Step (List (String × Datum))
  | 0, _, cs => .error ⟨.propertyName, cs⟩
  | fuel + 1, acc, '"' :: rest =>
    match string rest with
    | .error e => .error e
    | .ok (key, rest) =>
      match skipSpace rest with
      | ':' :: rest =>
        match item (skipSpace rest) with
        | .error e => .error e
        | .ok (d, rest) =>
          match skipSpace rest with
          | '}' :: after => .ok (((key, d) :: acc).reverse, after)
          | ',' :: after => entriesFrom item fuel ((key, d) :: acc) (skipSpace after)
          | other => .error ⟨.comma, other⟩
      | other => .error ⟨.colon, other⟩
  | _ + 1, _, cs => .error ⟨.propertyName, cs⟩

/-- A table whose opening brace has been read. -/
def table (item : List Char → Step Datum) (rest : List Char) : Step Datum :=
  match skipSpace rest with
  | '}' :: after => .ok (.table [], after)
  | cs =>
    (entriesFrom item (cs.length + 1) [] cs).map fun (es, after) => (Datum.ofEntries es, after)

/-- A value whose lists and tables are nested at most `depth` deep. -/
def value : (depth : Nat) → List Char → Step Datum
  | 0, cs =>
    match cs with
    | '[' :: _ | '{' :: _ => .error ⟨.tooDeep, cs⟩
    | _ => scalar cs
  | depth + 1, cs =>
    match cs with
    | '[' :: rest => list (value depth) rest
    | '{' :: rest => table (value depth) rest
    | _ => scalar cs

/-- The value of a whole text of which at most `depth` levels may be nested. -/
def readDeep? (depth : Nat) (cs : List Char) : Except Failure Datum :=
  match cs with
  | '\ufeff' :: _ => .error ⟨.byteOrderMark, cs⟩
  | _ =>
    match value depth (skipSpace cs) with
    | .error e => .error e
    | .ok (d, rest) =>
      match skipSpace rest with
      | [] => .ok d
      | other => .error ⟨.extraData, other⟩

/-- The value of a whole text. -/
def read? (cs : List Char) : Except Failure Datum := readDeep? maxDepth cs

end Assay.Json

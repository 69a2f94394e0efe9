import Assay.Decimal.Numeral
import Assay.Schema.Checked
import Assay.Vocabulary

/-!
# Reading single values

A value is taken for what it plainly is, and for a little more: a whole number may be written as a
truth value, as a double without fraction or as a text of digits; a truth value as a zero, a one or one
of the usual words; a number as any of these.
-/

namespace Assay.Schema

/-- A text. -/
def text : Datum → Checked String
  | .text s => .good s
  | _ => .complain .notText

/-- White space in the sense of Unicode's property, which leaves out the ASCII separators. -/
def isWhite (c : Char) : Bool := Text.isBlank c && !(28 ≤ c.toNat && c.toNat ≤ 31)

/-- The characters without the white space at both ends. -/
def trimWhite (cs : List Char) : List Char :=
  ((cs.dropWhile isWhite).reverse.dropWhile isWhite).reverse

/-- The text without a point that zeros, at least one of them, follow to the end. -/
def withoutZeroFraction (cs : List Char) : List Char :=
  match Text.cut '.' cs with
  | some (whole, fraction) =>
    if !fraction.isEmpty && fraction.all (· == '0') then whole else cs
  | none => cs

/-- The text without its underscores, of which none may stand first, last or beside another. -/
def dropUnderscores (cs : List Char) : Option (List Char) :=
  if cs.head? == some '_' || cs.getLast? == some '_' || hasPair cs then none
  else some (cs.filter (· != '_'))
where
  /-- Two underscores stand side by side. -/
  hasPair : List Char → Bool
    | '_' :: '_' :: _ => true
    | _ :: rest => hasPair rest
    | [] => false

/-- The text without a plus sign before it, behind which no minus sign may stand. -/
def withoutPlus : List Char → Option (List Char)
  | '+' :: '-' :: _ => none
  | '+' :: rest => some rest
  | cs => some cs

/-- The text behind zeros and underscores that only pad it. The last character is kept. -/
def unpadded : List Char → Option (List Char)
  | [] => none
  | [c] => some [c]
  | c :: d :: rest =>
    if ('1' ≤ d && d ≤ '9') then some (d :: rest)
    else if d == '.' then some (c :: d :: rest)
    else if d == '0' || d == '_' then unpadded (d :: rest)
    else none

/-- The text without zeros that only pad it. It begins with a digit or a minus sign, behind which
nothing is left out. -/
def withoutLeadingZeros : List Char → Option (List Char)
  | '0' :: rest => unpadded ('0' :: rest)
  | c :: rest => if c == '-' || ('1' ≤ c && c ≤ '9') then some (c :: rest) else none
  | [] => none

/-- Digits with at most a minus sign before them and no zero that pads them, as a whole number. -/
def plainWhole (cs : List Char) : Checked Int :=
  let (negative, digits) := match cs with
    | '-' :: rest => (true, rest)
    | _ => (false, cs)
  if digits.isEmpty || !digits.all Decimal.isAsciiDigit || (digits.head? == some '0' && digits.length != 1)
  then .complain .unreadableWhole
  else if Decimal.maxWholeDigits < digits.length then .complain .oversizedWhole
  else
    let n : Int := Decimal.natOf digits
    .good (if negative then -n else n)

/-- The whole number in a text, which may have a plus sign, zeros that pad it, a fraction of zeros, and
underscores. -/
def wholeOfText (s : String) : Checked Int :=
  match (withoutPlus (trimWhite s.toList)).bind withoutLeadingZeros with
  | some cs =>
    let cs := withoutZeroFraction cs
    plainWhole ((dropUnderscores cs).getD cs)
  | none => .complain .unreadableWhole

/-- The whole number that a double is. -/
def wholeOfFloat (x : Float) : Checked Int :=
  match Decimal.Reading.ofFloat x with
  | .finite b =>
    if !b.isWhole then .complain .fractional
    else if b.truncate.natAbs < Nat.pow 2 63 then .good b.truncate
    else .complain .oversizedWhole
  | _ => .complain .infinite

/-- A whole number. -/
def whole : Datum → Checked Int
  | .int n => .good n
  | .bool b => .good (if b then 1 else 0)
  | .float x => wholeOfFloat x
  | .text s => wholeOfText s
  | _ => .complain .notWhole

/-- A whole number that is not below `least`. -/
def wholeFrom (least : Nat) (d : Datum) : Checked Nat :=
  (whole d).andThen fun n =>
    if n < (least : Int) then .complain (.below least) else .good n.toNat

/-- A whole number in a range. -/
def wholeWithin (least most : Nat) (d : Datum) : Checked Nat :=
  (wholeFrom least d).andThen fun n => if most < n then .complain (.above most) else .good n

/-- The words for truth and falsehood. -/
def truthWords : List (String × Bool) :=
  [("0", false), ("off", false), ("f", false), ("false", false), ("n", false), ("no", false),
    ("1", true), ("on", true), ("t", true), ("true", true), ("y", true), ("yes", true)]

/-- The truth value that a whole number stands for. -/
def truthOfWhole (n : Int) : Checked Bool :=
  if n == 0 then .good false else if n == 1 then .good true else .complain .unreadableTruth

/-- A truth value. -/
def truth : Datum → Checked Bool
  | .bool b => .good b
  | .int n => if n.natAbs < Nat.pow 2 63 then truthOfWhole n else .complain .notTruth
  | .float x =>
    match wholeOfFloat x with
    | .good n => truthOfWhole n
    | .bad _ => .complain .notTruth
  | .text s =>
    match truthWords.lookup (String.ofList (s.toList.map Char.toLower)) with
    | some b => .good b
    | none => .complain .unreadableTruth
  | _ => .complain .notTruth

/-- The number in a text. -/
def numberOfText (s : String) : Checked Float :=
  match Decimal.numeral? (trimWhite s.toList) with
  | some x => .good x
  | none =>
    match (dropUnderscores s.toList).bind Decimal.numeral? with
    | some x => .good x
    | none => .complain .unreadableNumber

/-- A number. -/
def number : Datum → Checked Float
  | .float x => .good x
  | .int n =>
    let x := Decimal.floatOf (n < 0) n.natAbs 0
    if x.isInf then .complain .notNumber else .good x
  | .bool b => .good (if b then 1.0 else 0.0)
  | .text s => numberOfText s
  | _ => .complain .notNumber

/-- A number that is not negative. -/
def numberFromZero (d : Datum) : Checked Float :=
  (number d).andThen fun x => if 0.0 ≤ x then .good x else .complain (.below 0)

/-- A member of a vocabulary by its name. -/
def member {α : Type} [Vocabulary α] (d : Datum) : Checked α :=
  match d with
  | .text s =>
    match Vocabulary.ofName? s with
    | some a => .good a
    | none => .complain (.notMember (Vocabulary.choices α))
  | _ => .complain (.notMember (Vocabulary.choices α))

/-- A value that may be missing. -/
def nullable {α : Type} (read : Datum → Checked α) : Datum → Checked (Option α)
  | .null => .good none
  | d => (read d).map some

/-- The items of a list from a place on, each read on its own. -/
def itemsFrom {α : Type} (read : Datum → Checked α) : Nat → List Datum → Checked (List α)
  | _, [] => .good []
  | n, d :: rest => (((read d).under (.place n)).map List.cons).apply (itemsFrom read (n + 1) rest)

/-- A list of any length. -/
def listOf {α : Type} (read : Datum → Checked α) : Datum → Checked (List α)
  | .list ds => itemsFrom read 0 ds
  | _ => .complain .notList

/-- A list that is kept as it is. -/
def tupleOf {α : Type} (read : Datum → Checked α) : Datum → Checked (List α)
  | .list ds => itemsFrom read 0 ds
  | _ => .complain .notTuple

/-- A table with values of one kind. -/
def tableOf {α : Type} (read : Datum → Checked α) : Datum → Checked (List (String × α))
  | .table entries =>
    Checked.all (entries.map fun (key, d) => ((read d).under (.key key)).map fun a => (key, a))
  | _ => .complain .notTable

/-- Anything at all. -/
def anything (d : Datum) : Checked Datum := .good d

end Assay.Schema

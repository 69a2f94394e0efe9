import Assay.Text.Classes
import Assay.Text.Split
import Assay.Floors

/-!
# Rule codes

Every tool writes the codes of its rules in a fixed shape: letters and a number of digits. Digits of
any script will do, and a line feed may follow.
-/

namespace Assay.Readers

/-- The text after exactly `n` decimal digits. -/
def afterDigits : (n : Nat) → List Char → Option (List Char)
  | 0, cs => some cs
  | _ + 1, [] => none
  | n + 1, c :: rest => if Text.isDecimal c then afterDigits n rest else none

/-- The text is a series and `n` digits. -/
def isNumbered (series : String) (n : Nat) (cs : List Char) : Bool :=
  Text.startsWith series.toList cs &&
    (match afterDigits n (cs.drop series.length) with
    | some rest => atEnd rest
    | none => false)

/-- A code of gosec: `G` and three digits. -/
def isGosecCode (s : String) : Bool := isNumbered "G" 3 s.toList

/-- A code of staticcheck: a series and four digits. -/
def isStaticcheckCode (s : String) : Bool :=
  ["SA", "S", "ST", "QF", "U"].any fun series => isNumbered series 4 s.toList

/-- A code of pylint: a letter and four digits. -/
def isPylintCode (s : String) : Bool :=
  ["C", "R", "W", "E", "F", "I"].any fun series => isNumbered series 4 s.toList

/-- The identifier of an advisory: `RUSTSEC`, a year and a number. -/
def isAdvisoryId (s : String) : Bool :=
  let cs := s.toList
  Text.startsWith "RUSTSEC-".toList cs &&
    (match afterDigits 4 (cs.drop 8) with
    | some ('-' :: rest) =>
      (match afterDigits 4 rest with
      | some after => atEnd after
      | none => false)
    | _ => false)

/-- A lower-case ASCII letter. -/
def isLowerLetter (c : Char) : Bool := 'a' ≤ c && c ≤ 'z'

/-- A character of a lint's name. -/
def isLintCharacter (c : Char) : Bool := isLowerLetter c || ('0' ≤ c && c ≤ '9') || c == '_'

/-- The name of a clippy lint in its code `clippy::name`. -/
def clippyLint? (s : String) : Option String :=
  let cs := s.toList
  if Text.startsWith "clippy::".toList cs then
    let name := Text.beforeLastFeed (cs.drop 8)
    if !name.isEmpty && name.all isLintCharacter then some (String.ofList name) else none
  else none

/-- A code of the compiler: `E` and four digits, or the name of a lint. -/
def isCompilerCode (s : String) : Bool :=
  isNumbered "E" 4 s.toList ||
    (match Text.beforeLastFeed s.toList with
    | c :: rest => isLowerLetter c && rest.all isLintCharacter
    | [] => false)

/-- The symbolic name of a message: small letters, digits and dashes after a small letter. -/
def isMessageName (s : String) : Bool :=
  match Text.beforeLastFeed s.toList with
  | c :: rest => isLowerLetter c && rest.all fun d => isLowerLetter d || ('0' ≤ d && d ≤ '9') || d == '-'
  | [] => false

/-- A version of the third major line: `3.` and one or two digits. -/
def isThirdVersion (s : String) : Bool :=
  Text.startsWith "3.".toList s.toList &&
    (let minor := Text.beforeLastFeed (s.toList.drop 2)
    (minor.length == 1 || minor.length == 2) && minor.all Text.isDecimal)

end Assay.Readers

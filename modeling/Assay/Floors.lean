import Assay.Severity
import Assay.Text.Classes
import Assay.Text.Split

/-!
# Severity floors

A floor is a severity below which the findings of certain rules never lie. The floors of a tool are
applied after its own label has been read; they only raise a severity.
-/

namespace Assay

/-- Which rule codes a floor covers. -/
inductive CodePattern where
  /-- The literal stands somewhere in the code; at its start, or at its end, if so marked. -/
  | literal (text : String) (atStart atEnd : Bool)
  /-- One of the literals is the whole code. -/
  | exactly (codes : List String)
  /-- The code is a series and a digit of the list, followed by three more digits. -/
  | series (name : String) (digits : List Char)
  /-- The code begins with one of the literals. -/
  | startingWith (literals : List String)
deriving Repr, DecidableEq

/-- The ends at which an end mark matches: the end of the text, and before a last line feed. -/
def atEnd : List Char → Bool
  | [] => true
  | ['\n'] => true
  | _ => false

/-- The literal stands somewhere in the text, at its end if so marked. -/
def CodePattern.literalIn (text : List Char) (pinned : Bool) : List Char → Bool
  | [] => text.isEmpty
  | c :: cs =>
    (Text.startsWith text (c :: cs) && (!pinned || Assay.atEnd ((c :: cs).drop text.length))) ||
      literalIn text pinned cs

/-- The code is covered. -/
def CodePattern.covers (p : CodePattern) (code : String) : Bool :=
  let cs := code.toList
  match p with
  | .literal text true pinned =>
    Text.startsWith text.toList cs && (!pinned || Assay.atEnd (cs.drop text.length))
  | .literal text false pinned => literalIn text.toList pinned cs
  | .exactly codes =>
    codes.any fun text => Text.startsWith text.toList cs && Assay.atEnd (cs.drop text.length)
  | .series name digits =>
    Text.startsWith name.toList cs &&
      (match cs.drop name.length with
      | a :: b :: c :: d :: rest =>
        digits.contains a && Text.isDecimal b && Text.isDecimal c && Text.isDecimal d &&
          Assay.atEnd rest
      | _ => false)
  | .startingWith literals => literals.any fun text => Text.startsWith text.toList cs

/-- The pattern that a text writes: a literal, after `^` if it stands at the start of a code and before
`$` if it stands at the end. -/
def CodePattern.ofText (s : String) : CodePattern :=
  let (atStart, cs) := match s.toList with
    | '^' :: rest => (true, rest)
    | cs => (false, cs)
  match cs.reverse with
  | '$' :: rest => .literal (String.ofList rest.reverse) atStart true
  | _ => .literal (String.ofList cs) atStart false

/-- One floor: the codes it covers and the least severity they get. -/
structure Floor where
  covers : String → Bool
  severity : Severity

/-- The floor of the codes that a pattern covers. -/
def CodePattern.floor (p : CodePattern) (severity : Severity) : Floor := ⟨p.covers, severity⟩

/-- The floors of each tool. -/
abbrev FloorTable := List (String × List Floor)

/-- The floors that hold unless a run brings its own. -/
def FloorTable.standard : FloorTable :=
  [("gosec",
      [(CodePattern.exactly ["G101", "G201", "G202"]).floor .high, (CodePattern.exactly ["G401", "G402"]).floor .medium]),
    ("staticcheck",
      [(CodePattern.series "SA" ['2', '5']).floor .high, (CodePattern.series "SA" ['1', '3', '4', '6', '9']).floor .medium]),
    ("clang-static-analyzer",
      [(CodePattern.startingWith ["core.NullDereference", "core.NonNullParamChecker", "core.DivideZero"]).floor .high,
        (CodePattern.startingWith ["unix.Malloc", "unix.MismatchedDeallocator"]).floor .high,
        (CodePattern.startingWith ["security.", "alpha.security."]).floor .high]),
    ("pylint", [(CodePattern.exactly ["E0602", "E1120", "E1121"]).floor .high]),
    ("mypy", [(CodePattern.exactly ["name-defined", "attr-defined", "call-arg"]).floor .high])]

/-- The severity raised to the floors that cover the code. -/
def Severity.liftedBy (floors : List Floor) (code : String) (s : Severity) : Severity :=
  floors.foldl (fun s f => if f.covers code then s.raise f.severity else s) s

/-- The severity raised to every floor of the tool that covers the code. -/
def Severity.lifted (table : FloorTable) (tool code : String) (s : Severity) : Severity :=
  s.liftedBy ((table.lookup tool).getD []) code

end Assay

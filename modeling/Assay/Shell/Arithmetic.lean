import Assay.Decimal.Numeral
import Assay.Json.Reader
import Assay.Shell.Reader

/-!
# Arithmetic of a shell

Whole numbers, variables by their names, and the operators in their usual order. Nothing is divided by
zero.
-/

namespace Assay.Shell.Arithmetic

/-- A part of an expression that has been read, and the text after it. -/
abbrev Found := Option (Int × List Char)

/-- The text after blanks. -/
def skip (cs : List Char) : List Char := cs.dropWhile fun c => c == ' ' || c == '\t' || c == '\n'

/-- The number of a truth value. -/
def ofBool (b : Bool) : Int := if b then 1 else 0

/-- The operators by how tightly they bind, from the loosest on. A longer operator stands before the
one it begins with. -/
def levels : List (List String) :=
  [["||"], ["&&"], ["|"], ["^"], ["&"], ["==", "!="], ["<=", ">=", "<", ">"], ["+", "-"],
    ["*", "/", "%"]]

/-- The operator does not begin a longer one here. -/
def standsAlone (op : String) (after : List Char) : Bool :=
  match op, after with
  | "|", '|' :: _ | "&", '&' :: _ => false
  | _, _ => true

/-- The first of the operators that comes next. -/
def operator? (ops : List String) (cs : List Char) : Option (String × List Char) :=
  ops.findSome? fun op => match Text.dropStart? op.toList cs with
    | some after => if standsAlone op after then some (op, after) else none
    | none => none

/-- A bitwise operation on numbers that are not negative. -/
def bitwise (f : Nat → Nat → Nat) (a b : Int) : Int := f a.toNat b.toNat

/-- What an operator makes of two numbers; nothing if it divides by zero. -/
def apply (op : String) (a b : Int) : Option Int :=
  match op with
  | "||" => some (ofBool (a != 0 || b != 0))
  | "&&" => some (ofBool (a != 0 && b != 0))
  | "|" => some (bitwise Nat.lor a b)
  | "^" => some (bitwise Nat.xor a b)
  | "&" => some (bitwise Nat.land a b)
  | "==" => some (ofBool (a == b))
  | "!=" => some (ofBool (a != b))
  | "<=" => some (ofBool (decide (a ≤ b)))
  | ">=" => some (ofBool (decide (b ≤ a)))
  | "<" => some (ofBool (decide (a < b)))
  | ">" => some (ofBool (decide (b < a)))
  | "+" => some (a + b)
  | "-" => some (a - b)
  | "*" => some (a * b)
  | "/" => if b == 0 then none else some (Int.tdiv a b)
  | "%" => if b == 0 then none else some (Int.tmod a b)
  | _ => none

/-- The operands of one level after the first one, from the left to the right. -/
def operandsFrom (ops : List String) (operand : List Char → Found) :
    (fuel : Nat) → Int → List Char → Found
  | 0, _, _ => none
  | fuel + 1, a, cs =>
    match operator? ops (skip cs) with
    | none => some (a, cs)
    | some (op, rest) =>
      match operand rest with
      | none => none
      | some (b, after) =>
        match apply op a b with
        | some n => operandsFrom ops operand fuel n after
        | none => none

/-- An expression in which the operators of the given levels stand between operands. -/
def levelFrom (operand : List Char → Found) : List (List String) → List Char → Found
  | [], cs => operand cs
  | ops :: tighter, cs =>
    match levelFrom operand tighter cs with
    | none => none
    | some (a, after) => operandsFrom ops (levelFrom operand tighter) (after.length + 1) a after

/-- The number of digits in the base that they announce. -/
def numberOf (cs : List Char) : Option Int :=
  match cs with
  | '0' :: x :: rest =>
    if x == 'x' || x == 'X' then
      (rest.foldlM (fun n c => (Json.hexValue? c).map fun d => 16 * n + d) 0).map Int.ofNat
    else
      ((x :: rest).foldlM (fun n c =>
        if '0' ≤ c && c ≤ '7' then some (8 * n + (c.toNat - '0'.toNat)) else none) 0).map Int.ofNat
  | cs => if cs.all Char.isDigit then some (Decimal.natOf cs) else none

/-- The value of a variable as a number; a variable without one counts as zero. -/
def valueOf (value : String → String) (name : String) : Option Int :=
  match skip (value name).toList with
  | [] => some 0
  | '-' :: rest => (numberOf rest).map fun n => -n
  | cs => numberOf cs

/-- A number, a variable, an operand with a sign, or an expression in brackets. -/
def operandWithin (value : String → String) : (depth : Nat) → List Char → Found
  | 0, _ => none
  | depth + 1, cs =>
    match skip cs with
    | '(' :: rest =>
      match levelFrom (operandWithin value depth) levels rest with
      | some (n, after) =>
        match skip after with
        | ')' :: after => some (n, after)
        | _ => none
      | none => none
    | '-' :: rest => (operandWithin value depth rest).map fun (n, after) => (-n, after)
    | '+' :: rest => operandWithin value depth rest
    | '!' :: rest => (operandWithin value depth rest).map fun (n, after) => (ofBool (n == 0), after)
    | c :: rest =>
      let run := (c :: rest).takeWhile isNameChar
      let after := (c :: rest).drop run.length
      if c.isDigit then (numberOf run).map fun n => (n, after)
      else if beginsName c then (valueOf value (String.ofList run)).map fun n => (n, after)
      else none
    | [] => none

/-- The value of an expression; an empty one counts as zero. -/
def evaluate (value : String → String) (s : String) : Option Int :=
  let cs := s.toList
  if (skip cs).isEmpty then some 0
  else match levelFrom (operandWithin value (cs.length + 1)) levels cs with
    | some (n, after) => if (skip after).isEmpty then some n else none
    | none => none

end Assay.Shell.Arithmetic

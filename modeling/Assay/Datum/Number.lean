import Assay.Datum
import Assay.Decimal.Text
import Assay.Problem

/-!
# Numbers

Numbers of documents are whole or broken. Whole numbers are exact, and so is every comparison; where a
broken one takes part in a sum, the result is broken. A whole number beyond all doubles cannot take
part in such a sum.
-/

namespace Assay

/-- A number of a document. -/
inductive Number where
  | whole (n : Int)
  | broken (x : Float)

namespace Number

/-- The number as a value. -/
def toDatum : Number → Datum
  | whole n => .int n
  | broken x => .float x

/-- The number that a value is; truth counts as one, falsehood as zero. -/
def ofDatum? : Datum → Option Number
  | .bool b => some (whole (if b then 1 else 0))
  | .int n => some (whole n)
  | .float x => some (broken x)
  | _ => none

/-- The number that a value is meant to be. -/
def ofDatum (d : Datum) : Except Breach Number :=
  match ofDatum? d with
  | some n => .ok n
  | none => .error .wrongKind

/-- The double nearest to a whole number, unless it lies beyond all doubles. -/
def doubleOf? (n : Int) : Option Float :=
  let x := Decimal.floatOf (n < 0) n.natAbs 0
  if x.isInf then none else some x

/-- The number as a double. -/
def toFloat : Number → Except Breach Float
  | whole n =>
    match doubleOf? n with
    | some x => .ok x
    | none => .error .oversizedNumber
  | broken x => .ok x

/-- The sum of two numbers. -/
def add : Number → Number → Except Breach Number
  | whole m, whole n => .ok (whole (m + n))
  | a, b => do return broken ((← a.toFloat) + (← b.toFloat))

/-- The number with its sign turned round. -/
def neg : Number → Number
  | whole n => whole (-n)
  | broken x => broken (-x)

/-- The difference of two numbers. -/
def sub (a b : Number) : Except Breach Number := a.add b.neg

/-- The number without its sign. -/
def abs : Number → Number
  | whole n => whole n.natAbs
  | broken x => broken x.abs

/-- How two numbers compare, exactly; what is no number compares with none. -/
def compare? : Number → Number → Option Ordering
  | whole m, whole n => some (compare m n)
  | whole m, broken y => (Decimal.Reading.ofFloat y).against? m
  | broken x, whole n => ((Decimal.Reading.ofFloat x).against? n).map Ordering.swap
  | broken x, broken y =>
    if x < y then some .lt else if x == y then some .eq else if y < x then some .gt else none

/-- The first number is less than the second. -/
def less (a b : Number) : Bool := a.compare? b == some .lt

/-- The first number is at most the second. -/
def atMost (a b : Number) : Bool := (a.compare? b).any Ordering.isLE

/-- The numbers are equal. -/
def same (a b : Number) : Bool := a.compare? b == some .eq

instance : LT Number := ⟨fun a b => a.less b = true⟩
instance : DecidableLT Number := fun a b => inferInstanceAs (Decidable (a.less b = true))
instance : OfNat Number 0 := ⟨whole 0⟩

/-- A difference that cannot be formed is no number, which is less than none. -/
instance : Sub Number := ⟨fun a b => (a.sub b).toOption.getD (broken Decimal.notANumber)⟩

end Number

end Assay

/-!
# The shortest decimal of a double

The fewest decimal digits that read back as the same double, the nearest of those to the double, and
of two equally near ones the even one. `shortest` tries one to seventeen digits: on the grid of each
it looks at the two neighbours of the double and keeps those that lie in the interval of reals that
round to it.
-/

/-!
## Binary fractions

A finite double is `mantissa · 2^exponent` with a sign. Its parts are read off its bits, and the
number is given back exactly, as a fraction or cut down to a whole number.
-/

namespace Assay.Decimal

/-- The parts of a finite double. `edge` says that the mantissa is the least of its binade, so that
the gap below the number is half the gap above it. -/
structure Binary where
  negative : Bool
  mantissa : Nat
  exponent : Int
  edge : Bool
deriving Repr, DecidableEq

/-- What a double stands for. -/
inductive Reading where
  | finite (parts : Binary)
  | infinite (negative : Bool)
  | notANumber
deriving Repr, DecidableEq

/-- The parts of a double, read off its bits. -/
def Reading.ofFloat (x : Float) : Reading :=
  let bits : Nat := x.toBits.toNat
  let negative := bits / Nat.pow 2 63 == 1
  let biased : Nat := bits / Nat.pow 2 52 % 2048
  let fraction : Nat := bits % Nat.pow 2 52
  if biased == 2047 then
    if fraction == 0 then .infinite negative else .notANumber
  else if biased == 0 then .finite ⟨negative, fraction, -1074, false⟩
  else .finite ⟨negative, Nat.pow 2 52 + fraction, (biased : Int) - 1075, fraction == 0 && biased > 1⟩

/-- The whole part of a binary fraction, cut off toward zero. -/
def Binary.truncate (b : Binary) : Int :=
  let size : Nat :=
    if 0 ≤ b.exponent then b.mantissa * Nat.pow 2 b.exponent.toNat
    else b.mantissa / Nat.pow 2 (-b.exponent).toNat
  if b.negative then -(size : Int) else size

/-- How a whole number compares with a binary fraction, exactly. -/
def Binary.against (b : Binary) (n : Int) : Ordering :=
  let m : Int := if b.negative then -(b.mantissa : Int) else b.mantissa
  if 0 ≤ b.exponent then compare n (m * (Nat.pow 2 b.exponent.toNat : Nat))
  else compare (n * (Nat.pow 2 (-b.exponent).toNat : Nat)) m

/-- How a whole number compares with what a double stands for. -/
def Reading.against? (n : Int) : Reading → Option Ordering
  | .finite b => some (b.against n)
  | .infinite negative => some (if negative then .gt else .lt)
  | .notANumber => none

/-- The number has no part behind the point. -/
def Binary.isWhole (b : Binary) : Bool :=
  decide (0 ≤ b.exponent) || b.mantissa % Nat.pow 2 (-b.exponent).toNat == 0

/-- `digits · 10^exponent`. -/
structure Scientific where
  digits : Nat
  exponent : Int
deriving Repr, DecidableEq

/-- How many decimal digits a number has; zero has one. -/
def digitCount (n : Nat) : Nat := (Nat.toDigits 10 n).length

/-- The number without the zeros at its end, and how many there were. -/
def dropZeros : (fuel : Nat) → Nat → Nat × Nat
  | 0, n => (n, 0)
  | fuel + 1, n =>
    if n != 0 && n % 10 == 0 then
      let (m, k) := dropZeros fuel (n / 10)
      (m, k + 1)
    else (n, 0)

/-- A positive fraction `num / den` is below `10^k`. -/
def belowPow (num den : Nat) (k : Int) : Bool :=
  if 0 ≤ k then num < den * Nat.pow 10 k.toNat else num * Nat.pow 10 (-k).toNat < den

/-- The least `k` with `num / den < 10^k`, searched upward from `k`. -/
def magnitudeFrom (num den : Nat) : (fuel : Nat) → Int → Int
  | 0, k => k
  | fuel + 1, k => if belowPow num den k then k else magnitudeFrom num den fuel (k + 1)

/-- The least `k` with `num / den < 10^k`. -/
def magnitude (num den : Nat) : Int :=
  magnitudeFrom num den 4 ((digitCount num : Int) - digitCount den - 1)

/-- The interval of reals that round to a double, over a common denominator: the double itself, both
ends, and whether the ends belong to it. -/
structure Interval where
  value : Nat
  low : Nat
  high : Nat
  den : Nat
  closed : Bool

/-- The interval of a positive double. -/
def Binary.interval (b : Binary) : Interval :=
  let up := if 0 ≤ b.exponent then Nat.pow 2 b.exponent.toNat else 1
  let den := if 0 ≤ b.exponent then 4 else 4 * Nat.pow 2 (-b.exponent).toNat
  { value := 4 * b.mantissa * up
    low := (if b.edge then 4 * b.mantissa - 1 else 4 * b.mantissa - 2) * up
    high := (4 * b.mantissa + 2) * up
    den := den
    closed := b.mantissa % 2 == 0 }

/-- The fraction `n · 10^e / d` over the denominator of `i` lies in the interval. -/
def Interval.holds (i : Interval) (n : Nat) (e : Int) : Bool :=
  let (num, den) :=
    if 0 ≤ e then (n * Nat.pow 10 e.toNat * i.den, 1) else (n * i.den, Nat.pow 10 (-e).toNat)
  if i.closed then i.low * den ≤ num && num ≤ i.high * den
  else i.low * den < num && num < i.high * den

/-- The neighbour of the double on the grid of step `10^e` that reads back; of two the nearer one,
and the even one where they are equally near. -/
def Interval.onGrid (i : Interval) (e : Int) : Option Nat :=
  let (num, den) :=
    if 0 ≤ e then (i.value, i.den * Nat.pow 10 e.toNat)
    else (i.value * Nat.pow 10 (-e).toNat, i.den)
  let below := num / den
  let rest := num % den
  match i.holds below e && below != 0, i.holds (below + 1) e with
  | true, false => some below
  | false, true => some (below + 1)
  | false, false => none
  | true, true =>
    if 2 * rest < den then some below
    else if den < 2 * rest then some (below + 1)
    else some (if below % 2 == 0 then below else below + 1)

/-- The first grid of `n, n + 1, …` digits with a neighbour that reads back. -/
def Interval.search (i : Interval) (top : Int) : (fuel n : Nat) → Scientific
  | 0, _ => ⟨i.value / i.den, 0⟩
  | fuel + 1, n =>
    match i.onGrid (top - n) with
    | some d => ⟨d, top - n⟩
    | none => i.search top fuel (n + 1)

/-- The shortest decimal of a positive double, without zeros at its end. -/
def Binary.shortest (b : Binary) : Scientific :=
  let i := b.interval
  let found := i.search (magnitude i.value i.den) 17 1
  let (digits, zeros) := dropZeros 20 found.digits
  ⟨digits, found.exponent + zeros⟩

end Assay.Decimal

import Assay.Severity
import Assay.Text.Split

/-!
# Base scores of vulnerabilities

A vector names the base metrics of a vulnerability, in the third version of the scoring system. Its
parts after the first are pairs of a name and a value; of a repeated name the last value counts, and
further metrics do not. The score is computed from the eight values alone, in doubles.
-/

namespace Assay.Advisory

/-- The metrics of a vector by name, in the order of the vector. -/
abbrev Metrics := List (String × String)

/-- The part as a name and a value, if a colon parts them. -/
def metric? (part : String) : Option (String × String) :=
  (Text.cut ':' part.toList).map fun (name, value) => (String.ofList name, String.ofList value)

/-- The metrics of a vector; its first part names the scoring system. -/
def metrics (vector : String) : Metrics := ((Text.splitOn '/' vector).drop 1).filterMap metric?

/-- The value of a metric: the last one given. -/
def Metrics.get? (ms : Metrics) (name : String) : Option String := ms.reverse.lookup name

/-- How an attacker gets at the weak spot. -/
inductive AttackVector where
  | network
  | adjacent
  | localAccess
  | physical
deriving Repr, DecidableEq

/-- How hard an attack is. -/
inductive Complexity where
  | low
  | high
deriving Repr, DecidableEq

/-- What an attacker has to be allowed beforehand. -/
inductive Privileges where
  | none
  | low
  | high
deriving Repr, DecidableEq

/-- Whether somebody has to lend a hand. -/
inductive Interaction where
  | none
  | required
deriving Repr, DecidableEq

/-- Whether an attack reaches beyond the weak part. -/
inductive Scope where
  | unchanged
  | changed
deriving Repr, DecidableEq

/-- How much is lost. -/
inductive Impact where
  | high
  | low
  | none
deriving Repr, DecidableEq

/-- The eight base metrics. -/
structure Base where
  attackVector : AttackVector
  complexity : Complexity
  privileges : Privileges
  interaction : Interaction
  scope : Scope
  confidentiality : Impact
  integrity : Impact
  availability : Impact
deriving Repr, DecidableEq

/-- The attack vector that a letter stands for. -/
def AttackVector.ofLetter? : String → Option AttackVector
  | "N" => some .network
  | "A" => some .adjacent
  | "L" => some .localAccess
  | "P" => some .physical
  | _ => Option.none

/-- The complexity that a letter stands for. -/
def Complexity.ofLetter? : String → Option Complexity
  | "L" => some .low
  | "H" => some .high
  | _ => Option.none

/-- The privileges that a letter stands for. -/
def Privileges.ofLetter? : String → Option Privileges
  | "N" => some .none
  | "L" => some .low
  | "H" => some .high
  | _ => Option.none

/-- The interaction that a letter stands for. -/
def Interaction.ofLetter? : String → Option Interaction
  | "N" => some .none
  | "R" => some .required
  | _ => Option.none

/-- The impact that a letter stands for. -/
def Impact.ofLetter? : String → Option Impact
  | "H" => some .high
  | "L" => some .low
  | "N" => some .none
  | _ => Option.none

/-- The scope that a text stands for: everything but `C` leaves it unchanged. -/
def Scope.ofLetter (s : String) : Scope := if s == "C" then .changed else .unchanged

/-- The base metrics among the metrics of a vector, if none is missing or unheard of. The scope only
has to be there. -/
def Base.ofMetrics? (ms : Metrics) : Option Base := do
  return {
    scope := Scope.ofLetter (← ms.get? "S")
    privileges := ← (ms.get? "PR").bind Privileges.ofLetter?
    confidentiality := ← (ms.get? "C").bind Impact.ofLetter?
    integrity := ← (ms.get? "I").bind Impact.ofLetter?
    availability := ← (ms.get? "A").bind Impact.ofLetter?
    attackVector := ← (ms.get? "AV").bind AttackVector.ofLetter?
    complexity := ← (ms.get? "AC").bind Complexity.ofLetter?
    interaction := ← (ms.get? "UI").bind Interaction.ofLetter? }

/-- The weight of an attack vector. -/
def AttackVector.weight : AttackVector → Float
  | .network => 0.85
  | .adjacent => 0.62
  | .localAccess => 0.55
  | .physical => 0.2

/-- The weight of a complexity. -/
def Complexity.weight : Complexity → Float
  | .low => 0.77
  | .high => 0.44

/-- The weight of privileges, which is larger if the scope changes. -/
def Privileges.weight : Privileges → Scope → Float
  | .none, _ => 0.85
  | .low, .unchanged => 0.62
  | .low, .changed => 0.68
  | .high, .unchanged => 0.27
  | .high, .changed => 0.5

/-- The weight of an interaction. -/
def Interaction.weight : Interaction → Float
  | .none => 0.85
  | .required => 0.62

/-- The weight of an impact. -/
def Impact.weight : Impact → Float
  | .high => 0.56
  | .low => 0.22
  | .none => 0.0

/-- The least number of tenths that is not below a number, but for a rounding error. -/
def roundUp (x : Float) : Float := (x * 10.0 - 1e-9).ceil / 10.0

/-- The smaller of a number and ten. -/
def atMostTen (x : Float) : Float := if 10.0 < x then 10.0 else x

/-- The score of the base metrics. -/
def Base.score (b : Base) : Float :=
  let loss := 1.0 - (1.0 - b.confidentiality.weight) * (1.0 - b.integrity.weight) *
    (1.0 - b.availability.weight)
  let exploitability := 8.22 * b.attackVector.weight * b.complexity.weight *
    b.privileges.weight b.scope * b.interaction.weight
  let impact := match b.scope with
    | .changed => 7.52 * (loss - 0.029) - 3.25 * Float.pow (loss - 0.02) 15.0
    | .unchanged => 6.42 * loss
  if impact ≤ 0.0 then 0.0
  else match b.scope with
    | .changed => roundUp (atMostTen (1.08 * (impact + exploitability)))
    | .unchanged => roundUp (atMostTen (impact + exploitability))

/-- The base score of a vector. -/
def score? (vector : String) : Option Float := (Base.ofMetrics? (metrics vector)).map Base.score

/-- The severity of a score. -/
def severityOfScore (score : Float) : Severity :=
  if 9.0 ≤ score then .critical
  else if 7.0 ≤ score then .high
  else if 4.0 ≤ score then .medium
  else if 0.0 < score then .low
  else .info

end Assay.Advisory

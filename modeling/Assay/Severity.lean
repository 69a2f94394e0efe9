import Assay.Vocabulary

/-!
# Severity, category and confidence

The three scales on which every finding is placed. Severities are ordered by rank, and a severity is
only ever raised.
-/

namespace Assay

/-- How bad a finding is. -/
inductive Severity where
  | critical
  | high
  | medium
  | low
  | info
deriving Repr, DecidableEq, Inhabited

namespace Severity

/-- The place on the scale; larger is worse. -/
def rank : Severity → Nat
  | info => 0
  | low => 1
  | medium => 2
  | high => 3
  | critical => 4

instance : Vocabulary Severity where
  title := "Severity"
  members := [critical, high, medium, low, info]
  name
    | critical => "critical"
    | high => "high"
    | medium => "medium"
    | low => "low"
    | info => "info"

/-- As bad as `other` or worse. -/
def atLeast (s other : Severity) : Bool := other.rank ≤ s.rank

/-- The worse of two severities. -/
def raise (current candidate : Severity) : Severity :=
  if current.rank < candidate.rank then candidate else current

end Severity

/-- What kind of defect a finding reports. -/
inductive Category where
  | security
  | memorySafety
  | correctness
  | performance
  | style
  | complexity
  | suspicious
  | unused
  | deprecated
  | deadCode
  | type
  | vulnerability
  | other
deriving Repr, DecidableEq, Inhabited

namespace Category

instance : Vocabulary Category where
  title := "Category"
  members := [security, memorySafety, correctness, performance, style, complexity, suspicious, unused,
    deprecated, deadCode, type, vulnerability, other]
  name
    | security => "security"
    | memorySafety => "memory-safety"
    | correctness => "correctness"
    | performance => "performance"
    | style => "style"
    | complexity => "complexity"
    | suspicious => "suspicious"
    | unused => "unused"
    | deprecated => "deprecated"
    | deadCode => "dead-code"
    | type => "type"
    | vulnerability => "vulnerability"
    | other => "other"

end Category

/-- How sure a tool is of a finding. -/
inductive Confidence where
  | mathematicalProof
  | high
  | medium
  | low
  | heuristic
deriving Repr, DecidableEq, Inhabited

namespace Confidence

instance : Vocabulary Confidence where
  title := "Confidence"
  members := [mathematicalProof, high, medium, low, heuristic]
  name
    | mathematicalProof => "mathematical_proof"
    | high => "high"
    | medium => "medium"
    | low => "low"
    | heuristic => "heuristic"

end Confidence

end Assay

import Assay.Datum.Written
import Assay.Severity
import Assay.Sha256

/-!
# Keys of findings

Two keys are computed from the place and the kind of a finding: its identifier and its correlation
key. Each is the beginning of the hash of a text in which the parts are joined by bars. There is no such
text, and no key, if a part cannot be written out.
-/

namespace Assay

/-- The text that is hashed for a row of parts. -/
def hashedText (parts : List Datum) : Except Breach String := do
  return Text.join "|" (← parts.mapM Datum.told)

/-- The first `length` digits of the hash of a text; a negative length leaves out that many digits at
the end. -/
def hashStart (length : Int) (text : String) : String :=
  let digits := Sha256.hex text
  if 0 ≤ length then Text.take length.toNat digits
  else Text.take (digits.length - (-length).toNat) digits

/-- The first digits of the hash of a row of parts. -/
def stableHash (parts : List Datum) (length : Int) : Except Breach String :=
  (hashedText parts).map (hashStart length)

/-- How many digits an identifier has. -/
def identifierLength : Int := 16

/-- How many digits a correlation key has. -/
def correlationKeyLength : Nat := 32

/-- The parts of a key: a line of a file, what stands there, and the tool that tells of it. -/
def keyParts (path : String) (line : Int) (kind tool : String) : List Datum :=
  [.text path, .int line, .text kind, .text tool]

/-- The identifier of a finding. -/
def identifier (path : String) (line : Int) (rule tool : String) : Except Breach String :=
  stableHash (keyParts path line rule tool) identifierLength

/-- The correlation key of a finding, from the name of its category. -/
def correlationKeyOf (path : String) (line : Int) (category tool : String) : Except Breach String :=
  stableHash (keyParts path line category tool) correlationKeyLength

/-- The correlation key of a finding. -/
def correlationKey (path : String) (line : Int) (category : Category) (tool : String) : Except Breach String :=
  correlationKeyOf path line (Vocabulary.name category) tool

end Assay

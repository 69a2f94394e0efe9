import Assay.Digest
import Assay.Issue
import Assay.Text.Classes

/-!
# Correlation

Issues of different tools may tell of one defect. Each issue is stamped with what is needed to find
that out: a key made of place and category, a search radius, and abstract patterns that connect
findings even where their places differ.
-/

namespace Assay

/-- The patterns that a category stands for. -/
def Category.patterns : Category → List String
  | .correctness => ["logical_error"]
  | .unused | .deadCode => ["dead_code"]
  | .performance => ["performance_bottleneck"]
  | .style => ["code_style"]
  | .security => ["security_vulnerability"]
  | .type => ["type_error"]
  | .vulnerability => ["vulnerable_dependency"]
  | _ => []

/-- A letter without case; the letters that differ from an ASCII letter in case only are that one. -/
def foldLetter : Char → Char
  | 'ſ' => 's'
  | 'ı' | 'İ' => 'i'
  | c => c.toLower

/-- The words that a rule about cryptography has in its name. -/
def cryptoWords : List String := ["crypt", "cipher", "md5", "sha1", "rc4", "tls", "random"]

/-- The text begins with a word on cryptography, `des` only as the end of a word. -/
def startsCrypto (cs : List Char) : Bool :=
  let folded := cs.map foldLetter
  (cryptoWords.any fun word => Text.startsWith word.toList folded) ||
    (Text.startsWith "des".toList folded && !(cs.drop 3).head?.any Text.isWord)

/-- A word on cryptography stands somewhere in the text. -/
def mentionsCrypto : List Char → Bool
  | [] => false
  | c :: cs => startsCrypto (c :: cs) || mentionsCrypto cs

/-- One pattern if a condition holds. -/
def patternIf (condition : Bool) (pattern : String) : List String :=
  if condition then [pattern] else []

namespace Issue

/-- The patterns that the rules of a tool stand for. -/
def toolPatterns (i : Issue) : List String :=
  let rule := i.subcategory
  match i.toolName with
  | "gosec" =>
    patternIf (rule == "G101") "hardcoded_credentials" ++
      patternIf (Text.hasStart "G2" rule) "injection" ++
      patternIf (Text.hasStart "G3" rule) "file_security" ++
      patternIf (Text.hasStart "G4" rule) "weak_crypto"
  | "staticcheck" =>
    patternIf (rule == "SA5011") "null_deref" ++
      patternIf (Text.hasStart "SA2" rule) "potential_panic"
  | "clippy" =>
    patternIf (Text.contains "unwrap" rule || Text.contains "expect" rule) "potential_panic"
  | "mypy" => patternIf (rule == "union-attr" || rule == "optional-member") "null_deref"
  | "pylint" =>
    patternIf (i.tags.contains "eval-used" || i.tags.contains "exec-used") "injection"
  | _ => []

/-- The patterns of an issue: its own, those of its tool's rules, and those of its category. -/
def patterns (i : Issue) : List String :=
  (i.crossToolPatterns ++ i.toolPatterns ++ i.category.patterns ++
    patternIf (i.category == .security && i.severity == .critical) "critical_security" ++
    patternIf ((i.category == .security || i.category == .vulnerability) &&
      mentionsCrypto i.subcategory.toList) "weak_crypto").eraseDups

/-- The issue with a key, stamped for correlation. -/
def stamped (i : Issue) (key toolCategory : String) (radius : SearchRadius) : Issue :=
  { i with
    correlationKey := key
    toolCategory
    crossToolPatterns := i.patterns
    correlationHints := { searchRadius := radius, crossToolPatterns := i.patterns } }

/-- The issue stamped for correlation, if its key can be made. -/
def annotate (i : Issue) (toolCategory : String) (radius : SearchRadius := {}) : Except Breach Issue := do
  let key ← Assay.correlationKey i.canonicalPath i.startLine i.category i.toolName
  return i.stamped key toolCategory radius

/-- All issues stamped for correlation, in order. -/
def annotateAll (issues : List Issue) (toolCategory : String) (radius : SearchRadius := {}) :
    Except Breach (List Issue) :=
  issues.mapM fun i => i.annotate toolCategory radius

/-- What keeps an issue from being correlated. -/
def correlationProblems (i : Issue) : List String :=
  patternIf i.canonicalPath.isEmpty "missing canonical path" ++
    patternIf (i.startLine < 1) "start line must be at least 1" ++
    (if i.correlationKey.isEmpty then ["missing correlation key"]
      else patternIf (i.correlationKey.length != correlationKeyLength)
        "correlation key has unexpected length") ++
    patternIf i.toolCategory.isEmpty "missing tool category" ++
    patternIf i.ecosystem.isEmpty "missing ecosystem"

end Issue

/-- Why two issues may tell of one defect, the strongest reason first. -/
inductive CorrelationReason where
  | sameKey
  | proximity
  | sharedPattern
deriving Repr, DecidableEq

instance : Vocabulary CorrelationReason where
  title := "CorrelationReason"
  members := [.sameKey, .proximity, .sharedPattern]
  name
    | .sameKey => "same-key"
    | .proximity => "proximity"
    | .sharedPattern => "shared-pattern"

/-- The issues lie in one file, no further apart than the smaller of their radii. -/
def areNear (a b : Issue) : Bool :=
  a.canonicalPath == b.canonicalPath &&
    ((a.startLine - b.startLine).natAbs : Int) ≤
      min a.correlationHints.searchRadius.lines b.correlationHints.searchRadius.lines

/-- The strongest reason why two issues may tell of one defect. -/
def mayCorrelate (a b : Issue) : Option CorrelationReason :=
  if !a.correlationKey.isEmpty && a.correlationKey == b.correlationKey then some .sameKey
  else if areNear a b then some .proximity
  else if a.crossToolPatterns.any b.crossToolPatterns.contains then some .sharedPattern
  else none

/-- Two issues and the reason why they may tell of one defect. -/
structure Candidate where
  first : Issue
  second : Issue
  reason : CorrelationReason
deriving Repr, DecidableEq

/-- The candidates that an issue makes up with later ones. -/
def candidatesWith (crossToolOnly : Bool) (a : Issue) (later : List Issue) : List Candidate :=
  later.filterMap fun b =>
    if crossToolOnly && a.toolName == b.toolName then none
    else (mayCorrelate a b).map fun reason => ⟨a, b, reason⟩

/-- The pairs of issues that may tell of one defect, in order. -/
def correlationCandidates (crossToolOnly : Bool) : List Issue → List Candidate
  | [] => []
  | a :: rest => candidatesWith crossToolOnly a rest ++ correlationCandidates crossToolOnly rest

end Assay

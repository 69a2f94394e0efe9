import Assay.Correlate
import Assay.Datum.Display
import Assay.Datum.Operand
import Assay.Schema.Issues

/-!
# Drafts

A draft is an issue of which some fields were filled in by hand, with values that nobody has checked.
What can be done with issues can be done with drafts, but each step may meet a value that is not made
for it. A draft without such values behaves like its issue.

A severity or a category that was filled in is a mere text: it counts where names are compared, and
not where a member itself is asked for.
-/

namespace Assay

/-- An issue and the values filled in, by field. -/
structure Draft where
  issue : Issue
  filled : List (String × Datum) := []
deriving Inhabited

namespace Draft

/-- The field under which a document holds the values to be filled in. -/
def filledKey : String := "$update"

/-- Reads a draft: an issue, and beside it the values to be filled in. -/
def read (d : Datum) : Schema.Checked Draft :=
  (Issue.read (d.without [filledKey])).map fun issue =>
    match d.get filledKey with
    | .table entries => { issue, filled := entries }
    | _ => { issue }

/-- A field was filled in. -/
def isFilled (i : Draft) (field : String) : Bool := (Datum.lookup field i.filled).isSome

/-- The value of a field. -/
def value (i : Draft) (field : String) : Datum :=
  match Datum.lookup field i.filled with
  | some d => d
  | none => (Datum.lookup field i.issue.entries).getD .null

/-- The entries of a document with one changed; a key that is not there changes nothing. -/
def replaceEntry (key : String) (d : Datum) (entries : List (String × Datum)) : List (String × Datum) :=
  entries.map fun (k, old) => if k == key then (k, d) else (k, old)

/-- Writes a draft. Values for fields that issues do not have are left out. -/
def write (i : Draft) : Datum :=
  Schema.written .camel (i.issue.entries.map fun (field, _) => (field, i.value field))

/-! ## Correlation -/

/-- The patterns that the rules of a tool stand for. -/
def toolPatterns (i : Draft) : Except Breach (List String) := do
  let rule := i.value "subcategory"
  match i.value "tool_name" with
  | .text "clippy" =>
    return patternIf ((← rule.has "unwrap") || (← rule.has "expect")) "potential_panic"
  | .text "mypy" =>
    let code ← rule.asKey
    return patternIf (code.same (.text "union-attr") || code.same (.text "optional-member")) "null_deref"
  | .text "pylint" =>
    let tags := i.value "tags"
    return patternIf ((← tags.has "eval-used") || (← tags.has "exec-used")) "injection"
  | .text tool =>
    if tool == "gosec" || tool == "staticcheck" then
      let subcategory ← rule.ownText
      return { i.issue with toolName := tool, subcategory }.toolPatterns
    else return []
  | tool => do
    let _ ← tool.asKey
    return []

/-- The category that the name in its field belongs to. -/
def category? (i : Draft) : Except Breach (Option Category) := do
  match ← (i.value "category").asKey with
  | .text s => return Vocabulary.ofName? s
  | _ => return none

/-- The patterns of a draft: its own, those of its tool's rules, and those of its category. -/
def patterns (i : Draft) : Except Breach (List Datum) := do
  let own ← (i.value "cross_tool_patterns").parts
  let tool ← i.toolPatterns
  let category ← i.category?
  let critical := !i.isFilled "category" && !i.isFilled "severity" &&
    i.issue.category == .security && i.issue.severity == .critical
  let crypto ← if category == some .security || category == some .vulnerability then
      (i.value "subcategory").asText.map fun s => mentionsCrypto s.toList
    else pure false
  let derived := tool ++ (category.map Category.patterns).getD [] ++
    patternIf critical "critical_security" ++ patternIf crypto "weak_crypto"
  Datum.distinct (own ++ derived.map Datum.text)

/-- The correlation key of a draft. -/
def correlationKey (i : Draft) : Except Breach String :=
  stableHash (["canonical_path", "start_line", "category", "tool_name"].map i.value) correlationKeyLength

/-- The fields that are set when a draft is stamped for correlation. -/
def stampedFields : List String :=
  ["correlation_key", "tool_category", "cross_tool_patterns", "correlation_hints"]

/-- The draft stamped for correlation. Its patterns have to be texts. -/
def annotate (i : Draft) (toolCategory : String) (radius : SearchRadius) : Except Breach Draft := do
  if i.filled.isEmpty then return { issue := ← i.issue.annotate toolCategory radius }
  let patterns ← i.patterns
  match (Schema.tupleOf Schema.text (.list patterns)).under (.key "cross_tool_patterns") with
  | .bad faults => throw (.invalid (Schema.faultsText faults))
  | .good crossToolPatterns =>
    return {
      issue := { i.issue with
        correlationKey := ← i.correlationKey, toolCategory, crossToolPatterns
        correlationHints := { searchRadius := radius, crossToolPatterns } }
      filled := i.filled.filter fun e => !stampedFields.contains e.1 }

/-- What keeps a draft from being correlated. -/
def correlationProblems (i : Draft) : Except Breach (List String) := do
  if i.filled.isEmpty then return i.issue.correlationProblems
  let line ← Number.ofDatum (i.value "start_line")
  let key := i.value "correlation_key"
  let keyProblems ← if key.isTruthy then
      key.size.map fun n => patternIf (n != correlationKeyLength) "correlation key has unexpected length"
    else pure ["missing correlation key"]
  return patternIf (!(i.value "canonical_path").isTruthy) "missing canonical path" ++
    patternIf (line.less (.whole 1)) "start line must be at least 1" ++ keyProblems ++
    patternIf (!(i.value "tool_category").isTruthy) "missing tool category" ++
    patternIf (!(i.value "ecosystem").isTruthy) "missing ecosystem"

/-- The lines of the search radius of a draft; hints that were filled in have no radius. -/
def radiusLines (i : Draft) : Except Breach Int :=
  if i.isFilled "correlation_hints" then .error .unsupported
  else .ok i.issue.correlationHints.searchRadius.lines

/-- The drafts lie in one file, no further apart than the smaller of their radii. -/
def areNear (a b : Draft) : Except Breach Bool := do
  if !(a.value "canonical_path").same (b.value "canonical_path") then return false
  let lines := min (← a.radiusLines) (← b.radiusLines)
  let gap ← (← Number.ofDatum (a.value "start_line")).sub (← Number.ofDatum (b.value "start_line"))
  return gap.abs.atMost (.whole lines)

/-- The drafts have a pattern in common. -/
def sharePattern (a b : Draft) : Except Breach Bool := do
  let first ← Datum.distinct (← (a.value "cross_tool_patterns").parts)
  let second ← Datum.distinct (← (b.value "cross_tool_patterns").parts)
  return first.any fun p => second.any p.same

/-- The strongest reason why two drafts may tell of one defect. -/
def mayCorrelate (a b : Draft) : Except Breach (Option CorrelationReason) := do
  let key := a.value "correlation_key"
  if key.isTruthy && key.same (b.value "correlation_key") then return some .sameKey
  if ← areNear a b then return some .proximity
  if ← sharePattern a b then return some .sharedPattern
  return none

/-- Two drafts and the reason why they may tell of one defect. -/
abbrev Pair := Draft × Draft × CorrelationReason

/-- The pairs that a draft makes up with later ones. -/
def pairsWith (crossToolOnly : Bool) (a : Draft) : List Draft → Except Breach (List Pair)
  | [] => .ok []
  | b :: rest => do
    let own ← if crossToolOnly && (a.value "tool_name").same (b.value "tool_name") then pure []
      else (mayCorrelate a b).map fun reason => (reason.map fun r => (a, b, r)).toList
    return own ++ (← pairsWith crossToolOnly a rest)

/-- The pairs of drafts that may tell of one defect, in order. -/
def pairs (crossToolOnly : Bool) : List Draft → Except Breach (List Pair)
  | [] => .ok []
  | a :: rest => do return (← pairsWith crossToolOnly a rest) ++ (← pairs crossToolOnly rest)

/-- The pairs of drafts that may tell of one defect, in order. Issues without values filled in are
paired as issues. -/
def candidates (crossToolOnly : Bool) (drafts : List Draft) : Except Breach (List Pair) :=
  if drafts.all fun i => i.filled.isEmpty then
    .ok ((correlationCandidates crossToolOnly (drafts.map (·.issue))).map fun c =>
      ({ issue := c.first }, { issue := c.second }, c.reason))
  else pairs crossToolOnly drafts

end Draft

end Assay

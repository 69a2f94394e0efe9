import Assay.Digest
import Assay.Files.Guard
import Assay.Floors
import Assay.Issue
import Assay.Labels
import Assay.Options
import Assay.Problem

/-!
# Normalizing findings

A raw finding becomes an issue if it lies in the project, outside the denied directories. Positions are
brought to at least one and into order, the severity is lifted to the floors of its rule, and tags are
kept once each. Options may then leave out an issue by severity or by rule.
-/

namespace Assay

open Files

/-- The rule of a finding that names none. -/
def namelessRule : String := "unknown"

/-- What is the same for all findings of one run of a tool. -/
structure Profile where
  tool : String
  toolVersion : Option String := none
  /-- The ecosystem of findings that name none. -/
  ecosystem : String
  /-- The confidence of findings that name none. -/
  defaultConfidence : Confidence
  root : Path
  denied : List String := deniedNames
  floors : FloorTable := FloorTable.standard

/-- The texts that are not empty, each once, in the order of their first appearance. -/
def distinct (texts : List String) : List String := (texts.filter fun s => !s.isEmpty).eraseDups

/-- A text, or another one if it is missing or empty. -/
def orElse (s : Option String) (fallback : String) : String :=
  match s with
  | some s => if s.isEmpty then fallback else s
  | none => fallback

/-- A number that is given and not zero, or another one. -/
def orElseWhole (n : Option Int) (fallback : Int) : Int :=
  match n with
  | some n => if n == 0 then fallback else n
  | none => fallback

/-- The span of a finding: from one on, and not ending before it starts. -/
structure Span where
  startLine : Int
  startColumn : Int
  endLine : Int
  endColumn : Int
deriving Repr, DecidableEq

/-- The span of a raw finding. A missing end is that of the start. -/
def RawIssue.span (raw : RawIssue) : Span :=
  let startLine := max (orElseWhole raw.line 1) 1
  let startColumn := max (orElseWhole raw.column 1) 1
  let endLine := max (orElseWhole raw.endLine startLine) startLine
  let endColumn := max (orElseWhole raw.endColumn startColumn) 1
  { startLine, startColumn, endLine
    endColumn := if endLine == startLine then max endColumn startColumn else endColumn }

/-- The rule of a raw finding. -/
def RawIssue.ruleName (raw : RawIssue) : String := orElse raw.rule namelessRule

/-- The tags of an issue: its ecosystem, those of the finding, and what could not be read. -/
def RawIssue.issueTags (raw : RawIssue) (ecosystem : String) : List String :=
  let strange := (Category.ofLabel raw.category).2.map fun label => "category:" ++ label
  distinct (ecosystem :: raw.tags ++ strange.toList ++
    (if raw.severityKnown then [] else [unknownLabelTag]))

/-- The issue of a raw finding at a path in the project, with an identifier. -/
def Profile.issueWith (p : Profile) (id path : String) (raw : RawIssue) : Issue :=
  let span := raw.span
  let rule := raw.ruleName
  let ecosystem := orElse raw.ecosystem p.ecosystem
  { id
    toolName := p.tool
    toolVersion := p.toolVersion
    canonicalPath := path
    startLine := span.startLine
    startColumn := span.startColumn
    endLine := span.endLine
    endColumn := span.endColumn
    severity := raw.severity.lifted p.floors p.tool rule
    category := (Category.ofLabel raw.category).1
    subcategory := rule
    title := raw.title
    description := orElse (some raw.description) raw.title
    confidence := raw.confidence.getD p.defaultConfidence
    tags := raw.issueTags ecosystem
    fixSuggestion := raw.fix
    externalRefs := raw.refs.filter fun r => !r.isEmpty
    crossToolPatterns := distinct raw.patternHints
    ecosystem }

/-- The issue of a raw finding at a path in the project, if its identifier can be made. -/
def Profile.issueAt (p : Profile) (path : String) (raw : RawIssue) : Except Breach Issue := do
  let id ← identifier path raw.span.startLine raw.ruleName p.tool
  return p.issueWith id path raw

/-- The path of a raw finding in the project. -/
def Profile.pathOf? (p : Profile) (t : Tree) (raw : RawIssue) : Option String :=
  raw.file.bind fun file => t.relativePath? file p.root p.denied

/-- The issue of a raw finding, if it lies in the project. -/
def Profile.issue? (p : Profile) (t : Tree) (raw : RawIssue) : Except Breach (Option Issue) :=
  match p.pathOf? t raw with
  | none => .ok none
  | some path => do
    let issue ← p.issueAt path raw
    match Issue.pathComplaint path with
    | some text => throw (.invalid ("canonical_path: Value error, " ++ text))
    | none => return some issue

/-- The rule is one of these or begins with one. -/
def matchesRule (rule : String) (patterns : List String) : Bool :=
  patterns.any fun pattern => Text.hasStart pattern rule

/-- The issue is severe enough and its rule is wanted. -/
def LanguageOptions.admits (o : LanguageOptions) (i : Issue) : Bool :=
  i.severity.atLeast o.severityThreshold &&
    (o.includeRules.isEmpty || matchesRule i.subcategory o.includeRules) &&
    !matchesRule i.subcategory o.excludeRules

/-- The issues of a run, and how many findings became none. -/
structure Normalized where
  issues : List Issue := []
  /-- Findings outside the project or in denied directories. -/
  outsideRoot : Nat := 0
  /-- Issues that the options left out. -/
  filtered : Nat := 0
deriving Repr, DecidableEq

/-- What one raw finding adds. -/
def Profile.normalizeOne (p : Profile) (t : Tree) (options : Option LanguageOptions)
    (raw : RawIssue) : Except Breach Normalized := do
  match ← p.issue? t raw with
  | none => return { outsideRoot := 1 }
  | some i =>
    if options.all fun o => o.admits i then return { issues := [i] } else return { filtered := 1 }

/-- One outcome after another. -/
def Normalized.append (a b : Normalized) : Normalized :=
  ⟨a.issues ++ b.issues, a.outsideRoot + b.outsideRoot, a.filtered + b.filtered⟩

instance : Append Normalized := ⟨Normalized.append⟩

/-- The issues of raw findings, in order. -/
def Profile.normalize (p : Profile) (t : Tree) (options : Option LanguageOptions) :
    List RawIssue → Except Breach Normalized
  | [] => .ok {}
  | raw :: rest => do
    let first ← p.normalizeOne t options raw
    let others ← p.normalize t options rest
    return first ++ others

/-- The warning about findings that lie outside. -/
def Normalized.warnings (n : Normalized) : List String :=
  if n.outsideRoot == 0 then []
  else ["dropped " ++ Decimal.natText n.outsideRoot ++
    " finding(s) outside the project root or in denied directories"]

end Assay

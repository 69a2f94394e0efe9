import Assay.Datum
import Assay.Language
import Assay.Severity

/-!
# Options

The options of a run: a block for every language, limits that hold for all tools, and how many tools
run side by side. What the user says on the command line is laid over the options of a file.
-/

namespace Assay

/-- How many tools run side by side at most, unless the user says otherwise. -/
def maxDefaultWorkers : Nat := 4

/-- How many tools run side by side on a machine with this many processors. -/
def defaultParallelism (processors : Option Nat) : Nat :=
  let known := match processors with
    | none | some 0 => 1
    | some n => n
  max 1 (min known maxDefaultWorkers)

/-- The options of one tool, by name. -/
abbrev ToolSettings := List (String × Datum)

/-- The options for the tools of one language. -/
structure LanguageOptions where
  severityThreshold : Severity := .info
  includeRules : List String := []
  excludeRules : List String := []
  /-- How many files a tool gets at once. -/
  batchSize : Option Nat := none
  timeoutMs : Nat := 300000
  parallelism : Nat
  /-- The tools to run; all of them if there is no selection. -/
  toolSelection : Option (List String) := none
  includeTests : Bool := true
  toolOptions : List (String × ToolSettings) := []
deriving Inhabited

/-- The options of a language that a configuration does not speak of. -/
def LanguageOptions.standard (parallelism : Nat) : LanguageOptions := { parallelism }

/-- The tool runs under these options. -/
def LanguageOptions.selects (o : LanguageOptions) (tool : String) : Bool :=
  match o.toolSelection with
  | none => true
  | some tools => tools.contains tool

/-- The options of a tool, none if nothing is said of it. -/
def LanguageOptions.settingsOf (o : LanguageOptions) (tool : String) : ToolSettings :=
  (o.toolOptions.lookup tool).getD []

/-- The limits that hold for every tool. -/
structure ResourceLimits where
  maxFiles : Nat := 1000
  maxDepth : Nat := 32
  maxFileBytes : Nat := 10485760
  maxAggregateBytes : Nat := 104857600
  maxOutputBytes : Nat := 16777216
  gracePeriodMs : Nat := 2000
deriving Repr, DecidableEq, Inhabited

/-- All options of a run. -/
structure AnalysisOptions where
  rust : LanguageOptions
  go : LanguageOptions
  c : LanguageOptions
  cpp : LanguageOptions
  python : LanguageOptions
  limits : ResourceLimits := {}
  /-- For how many seconds it is remembered that a tool is available. -/
  availabilityTtlSeconds : Float := 300.0
  workers : Int

/-- The options of a run without a configuration. -/
def AnalysisOptions.standard (parallelism : Nat) : AnalysisOptions :=
  let block := LanguageOptions.standard parallelism
  { rust := block, go := block, c := block, cpp := block, python := block, workers := parallelism }

/-- The block of a language. -/
def AnalysisOptions.block (o : AnalysisOptions) : Language → LanguageOptions
  | .rust => o.rust
  | .go => o.go
  | .c => o.c
  | .cpp => o.cpp
  | .python => o.python

/-- The options with another block for a language. -/
def AnalysisOptions.withBlock (o : AnalysisOptions) (block : LanguageOptions) : Language → AnalysisOptions
  | .rust => { o with rust := block }
  | .go => { o with go := block }
  | .c => { o with c := block }
  | .cpp => { o with cpp := block }
  | .python => { o with python := block }

/-- The options with every block changed in the same way. -/
def AnalysisOptions.mapBlocks (o : AnalysisOptions) (f : LanguageOptions → LanguageOptions) :
    AnalysisOptions :=
  { o with rust := f o.rust, go := f o.go, c := f o.c, cpp := f o.cpp, python := f o.python }

/-- What the user says beside the configuration; what is missing changes nothing. -/
structure Overrides where
  toolSelection : Option (List String) := none
  timeoutMs : Option Nat := none
  workers : Option Int := none
deriving Repr, DecidableEq, Inhabited

/-- The block with what the user says. -/
def LanguageOptions.overriddenBy (o : LanguageOptions) (u : Overrides) : LanguageOptions :=
  { o with
    toolSelection := u.toolSelection.or o.toolSelection
    timeoutMs := u.timeoutMs.getD o.timeoutMs }

/-- The options with what the user says, in every block. -/
def AnalysisOptions.overriddenBy (o : AnalysisOptions) (u : Overrides) : AnalysisOptions :=
  { o.mapBlocks fun block => block.overriddenBy u with workers := u.workers.getD o.workers }

/-- A letter or a digit of ASCII, or one of the marks. -/
def isPlain (marks : List Char) (c : Char) : Bool := c.isAlphanum || marks.contains c

/-- The text can stand for a rule: letters, digits and a few marks. -/
def isRuleName (s : String) : Bool :=
  let cs := Text.beforeLastFeed s.toList
  !cs.isEmpty && cs.all (isPlain ['_', '.', ':', '/', '-'])

/-- A small letter or a digit of ASCII. -/
def isSmall (c : Char) : Bool := ('a' ≤ c && c ≤ 'z') || ('0' ≤ c && c ≤ '9')

/-- The text can stand for a tool: small letters, digits and inner dashes. -/
def isToolName (s : String) : Bool :=
  match Text.beforeLastFeed s.toList with
  | c :: rest => isSmall c && rest.all fun d => isSmall d || d == '-'
  | [] => false

end Assay

import Assay.Analyzer.Availability
import Assay.Datum.Display
import Assay.Discover
import Assay.Labels
import Assay.Options
import Assay.Readers.Output
import Assay.Sandbox.Capture
import Assay.Sandbox.Policy

/-!
# Analyzers

An analyzer knows one tool: what it is called and how it is run, which projects it wants, which options
it takes, the commands that a project asks for, and how to read what they print. It is a record of data
and of a few functions, so that everything else is written once for all tools.
-/

namespace Assay

open Files

/-- What kind of value an option takes. -/
inductive OptionKind where
  | flag
  | whole
  | text
  | list
deriving Repr, DecidableEq, Inhabited

/-- The value is of the kind. -/
def OptionKind.admits : OptionKind → Datum → Bool
  | flag, .bool _ => true
  | whole, .int _ => true
  | text, .text _ => true
  | list, .list _ => true
  | _, _ => false

/-- How a tool is installed. -/
structure InstallHint where
  steps : List String
  requirements : List String := []
  notes : String := ""
deriving Repr, DecidableEq, Inhabited

/-- One command that a project asks for. -/
structure Invocation where
  arguments : List String
  workingDirectory : Path
  /-- The file that the tool writes its report to; it prints the report if there is none. -/
  reportFile : Option Path := none
  /-- The sources that the command covers. -/
  files : List Path := []
deriving Repr, DecidableEq, Inhabited

/-- The commands that a project asks for, in order, and the files laid out for them. -/
structure Plan where
  invocations : List Invocation
  inputs : List (Path × String) := []
deriving Repr, Inhabited

/-- What a plan is made for. -/
structure Task where
  projectRoot : Path
  /-- Where the tool runs: the project root, or a directory above it. -/
  toolRoot : Path
  language : Language
  options : LanguageOptions
  settings : ToolSettings
  /-- A directory for files of the run. -/
  scratch : Path
  files : List Path := []
deriving Inhabited

/-- Why a plan is not carried out. -/
inductive Refusal where
  /-- There is nothing to do, for a reason. -/
  | skipped (reason : String)
  | failed (failure : Failure)

/-- The output of one command. -/
structure Output where
  invocation : Invocation
  exitCode : Int
  stdout : String
  stderr : String
  report : Option String
deriving Inhabited

/-- What the output of one command was read as. -/
structure Reading where
  harvest : Readers.Harvest
  /-- The warning that the command left its sources unread. -/
  unread : Option String := none

/-- What is known of a tool. -/
structure Analyzer where
  name : String
  /-- The languages it serves; it is attributed to the first one unless said otherwise. -/
  languages : List Language
  category : String
  policy : Sandbox.Policy
  install : InstallHint
  formats : List String := ["json"]
  requiresBuild : Bool := false
  supportsIncremental : Bool := false
  defaultConfidence : Confidence := .medium
  /-- The files that mark a project. -/
  markers : List String := []
  /-- The project may start in a directory above the given one. -/
  searchesParents : Bool := false
  /-- The sources that the tool is given, by their endings. -/
  extensions : List String
  /-- The tool is given a list of sources. -/
  takesFiles : Bool := false
  /-- How many sources the tool gets at once unless the options say otherwise. -/
  batchSize : Option Nat := none
  optionKinds : List (String × OptionKind) := []
  versionArguments : List String := ["--version"]
  minimumVersion : Option String := none
  searchRadius : SearchRadius := {}
  /-- The complaint about option values of the right kind that the tool does not take. -/
  complaint : ToolSettings → Option String := fun _ => none
  /-- The severities that the tool's labels stand for. -/
  severities : SeverityTable := []
  /-- Reads the findings in the output or the report of the tool. -/
  reader : Readers.Reader
  /-- The commands that a task asks for. -/
  plan : Tree → Task → Except Refusal Plan
  /-- The exit code goes with the output, given whether findings were read. -/
  accepts : Output → Bool → Bool := fun output found => output.exitCode == 0 || found
  /-- Reads the output of one command: what it printed, or its report. -/
  read : Task → Output → Except Failure Reading := fun task output =>
    (reader task.toolRoot output.stdout).map fun harvest => { harvest }

namespace Analyzer

/-- The complaint about an option whose name is not known or whose value is of the wrong kind. -/
def kindComplaint (a : Analyzer) (option : String × Datum) : Option String :=
  match a.optionKinds.lookup option.1 with
  | none => some ("unknown option " ++ Text.quoted option.1)
  | some kind =>
    if kind.admits option.2 then none else some ("invalid value for " ++ Text.quoted option.1)

/-- The first complaint about options: about names and kinds, then about values. -/
def settingsComplaint (a : Analyzer) (settings : ToolSettings) : Option String :=
  (settings.findSome? a.kindComplaint).or (a.complaint settings)

/-- Refuses options that the tool does not take. -/
def checkSettings (a : Analyzer) (settings : ToolSettings) : Except Problem Unit :=
  match a.settingsComplaint settings with
  | some text => .error ⟨.unknownOption, a.name ++ ": " ++ text⟩
  | none => .ok ()

/-- The problem of a project without anything for the tool. -/
def noProject (a : Analyzer) (text : String) : Failure :=
  Failure.of .projectNotFound (a.name ++ ": " ++ text)

/-- The endings of all sources of some languages. -/
def extensionsOf (languages : List Language) : List String := languages.flatMap Language.extensions

/-- The first source that a tool would be given, if there is any. -/
def sampleOptions (a : Analyzer) (limits : ResourceLimits) : DiscoverOptions :=
  { extensions := a.extensions, maxFiles := 1, maxDepth := limits.maxDepth }

/-- One of the markers stands in the root; one that cannot be looked at is a breach. -/
def markedBy (t : Tree) (root : Path) (markers : List String) : Except Failure Bool :=
  (Language.anyFile t root markers).mapError Failure.breach

/-- The directory that the tool runs in: the nearest one with a marker, or the project root if it has
a marker or any source. -/
def locateRoot (a : Analyzer) (t : Tree) (projectRoot : Path) (limits : ResourceLimits) :
    Except Failure Path := do
  if a.searchesParents then
    match t.markerRoot projectRoot a.markers none with
    | .error b => throw (.breach b)
    | .ok (some found) => return found
    | .ok none =>
      throw (a.noProject ("none of " ++ (Datum.list ((sortNames a.markers).map Datum.text)).shown ++
        " found at or above " ++ projectRoot.toString))
  else if ← markedBy t projectRoot a.markers then return projectRoot
  else
    let sample ← (a.sampleOptions limits).discover t projectRoot
    if sample.paths.isEmpty then throw (a.noProject ("no sources under " ++ projectRoot.toString))
    else return projectRoot

/-- What the sources for the tool are discovered by. -/
def sourceOptions (a : Analyzer) (options : LanguageOptions) (limits : ResourceLimits) :
    DiscoverOptions :=
  { extensions := a.extensions
    maxFiles := limits.maxFiles
    maxDepth := limits.maxDepth
    maxFileBytes := limits.maxFileBytes
    maxTotalBytes := some limits.maxAggregateBytes
    includeTests := options.includeTests }

/-- The sources that the tool is given. -/
def collectFiles (a : Analyzer) (t : Tree) (projectRoot : Path) (options : LanguageOptions)
    (limits : ResourceLimits) : Except Failure Discovered :=
  (a.sourceOptions options limits).discover t projectRoot

end Analyzer

/-- Consecutive groups of `size` items, the last of which may be smaller. -/
def batches {α : Type} (size : Nat) : (fuel : Nat) → List α → List (List α)
  | 0, _ => []
  | _ + 1, [] => []
  | fuel + 1, items => items.take size :: batches size fuel (items.drop size)

/-- The sources of a task in batches of the size that the options or the tool ask for. -/
def Task.batches (task : Task) (standard : Option Nat) : List (List Path) :=
  match task.options.batchSize.or standard with
  | none => if task.files.isEmpty then [] else [task.files]
  | some size => Assay.batches size task.files.length task.files

/-- The value of an option, null if it is not given. -/
def Task.setting (task : Task) (name : String) : Datum := (Datum.lookup name task.settings).getD .null

/-- The items of an option that is a list, none if it is not given. -/
def settingItems (settings : ToolSettings) (name : String) : List Datum :=
  match Datum.lookup name settings with
  | some (.list items) => items
  | _ => []

/-- The text of an option that is a text. -/
def settingText? (settings : ToolSettings) (name : String) : Option String :=
  match Datum.lookup name settings with
  | some (.text s) => some s
  | _ => none

/-- The option is set to something that counts as true. -/
def Task.isOn (task : Task) (name : String) : Bool := (task.setting name).isTruthy

end Assay

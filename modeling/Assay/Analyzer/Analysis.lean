import Assay.Analyzer.Basic
import Assay.Analyzer.Lifecycle
import Assay.Correlate
import Assay.Normalize
import Assay.Report
import Assay.Sandbox.Runner
import Assay.Version

/-!
# Analysing a project with one tool

The run of a tool is all or nothing. Its commands run one after another, each within what is left of
the time, and each output is read before the next command starts. Once all of them are read, the
findings become issues; the first problem on the way makes the whole run a failure without issues.

`probe` asks a tool for its version, `analyze` runs it.
-/

namespace Assay

open Files

/-! ## Probing -/

namespace Analyzer

/-- How long a tool may take to tell its version. -/
def probeTimeoutMs : Nat := 5000

/-- How much a tool may print to tell its version. -/
def probeOutputBytes : Nat := 65536

/-- The call that asks a tool for its version. -/
def probeCall (a : Analyzer) (t : Tree) : Sandbox.Call where
  policy := a.policy
  arguments := a.versionArguments
  workingDirectory := t.realPath (Path.ofString t.temporary)
  timeoutMs := probeTimeoutMs
  maxOutputBytes := probeOutputBytes

/-- What the answer to the question for the version says. -/
def judgeProbe (a : Analyzer) (outcome : Sandbox.Outcome) : Except Breach Availability :=
  let unavailable (text : String) := Availability.ofProblem ⟨.toolUnavailable, a.name ++ text⟩ none
  if outcome.timedOut then
    return unavailable (" version probe exceeded " ++ Decimal.natText probeTimeoutMs ++ " ms")
  else if outcome.exitCode != 0 then
    return unavailable (" version probe exited with " ++ Decimal.intText outcome.exitCode)
  else do
    let version ← match ← Version.ofOutput outcome.stdoutText with
      | some version => pure (some version)
      | none => Version.ofOutput outcome.stderrText
    match a.minimumVersion with
    | none => return { available := true, version }
    | some least =>
      if ← Version.meets version (some least) then return { available := true, version }
      else
        return Availability.ofProblem ⟨.toolVersionUnsupported,
          a.name ++ " " ++ version.getD "unknown" ++ " is older than " ++ least⟩ version

/-- Asks a tool for its version. A problem of the call makes the tool unavailable. -/
def probe {σ : Type} (a : Analyzer) (runner : Sandbox.Runner σ) (t : Tree) (world : σ) :
    Except Breach Availability × σ :=
  match runner.run (a.probeCall t) world with
  | (.ok reply, world) => (a.judgeProbe reply.outcome, world)
  | (.error (.problem p), world) => (.ok (.ofProblem p none), world)
  | (.error (.breach b), world) => (.error b, world)

end Analyzer

/-! ## The state of a run -/

/-- What a tool is asked to analyse. -/
structure Request where
  projectRoot : Path
  language : Language
  options : LanguageOptions
  limits : ResourceLimits := {}
  settings : ToolSettings
  /-- The run as a whole has been cancelled already. -/
  cancelled : Bool := false
  /-- What is known of the tool already; it is probed if nothing is. -/
  availability : Option Availability := none
deriving Inhabited

/-- What a run has come to. -/
structure Progress (σ : Type) where
  world : σ
  lifecycle : Lifecycle
  version : Option String := none
  filesAnalyzed : Nat := 0
  warnings : List String := []
  /-- How many records were left out. -/
  dropped : Nat := 0

/-- Why a run ends early. -/
inductive Stop where
  | skipped (reason : String)
  | problem (p : Problem)
  | breach (b : Breach)
deriving Repr, DecidableEq

/-- The end of a run that a failure brings. -/
def Stop.ofFailure : Failure → Stop
  | .problem p => .problem p
  | .breach b => .breach b

/-- A part of a run: it changes what the run has come to and may end it. -/
abbrev Session (σ α : Type) := ExceptT Stop (StateM (Progress σ)) α

namespace Session

variable {σ α : Type}

/-- Ends the run with a problem. -/
def fail (kind : ProblemKind) (detail : String) : Session σ α := throw (.problem ⟨kind, detail⟩)

/-- Ends the run if there is a problem. -/
def refuse (problem : Option Problem) : Session σ Unit :=
  match problem with
  | some p => throw (.problem p)
  | none => pure ()

/-- Goes on with the value of a computation that may fail. -/
def lift (e : Except Failure α) : Session σ α :=
  match e with
  | .ok value => pure value
  | .error f => throw (.ofFailure f)

/-- Goes on to another phase. -/
def advance (target : Phase) : Session σ Unit := do
  match (← get).lifecycle.advance target with
  | .ok lifecycle => modify fun p => { p with lifecycle }
  | .error b => throw (.breach b)

/-- Adds warnings. -/
def warn (texts : List String) : Session σ Unit :=
  modify fun p => { p with warnings := p.warnings ++ texts }

/-- Steps the surroundings. -/
def perform (step : σ → Except Failure α × σ) : Session σ α := do
  let (outcome, world) := step (← get).world
  modify fun p => { p with world }
  lift outcome

end Session

/-! ## Running commands -/

namespace Analyzer

variable {σ : Type}

/-- The problem of a run that took too long. -/
def timeoutProblem (a : Analyzer) (request : Request) : Problem :=
  ⟨.timeout, a.name ++ " exceeded " ++ Decimal.natText request.options.timeoutMs ++ " ms"⟩

/-- The problem of a command that was stopped. -/
def stopped? (a : Analyzer) (request : Request) (outcome : Sandbox.Outcome) : Option Problem :=
  if outcome.timedOut then some (a.timeoutProblem request)
  else if outcome.overflowed then
    some ⟨.outputOverflow, a.name ++ " output reached the " ++
      Decimal.natText request.limits.maxOutputBytes ++ " byte cap"⟩
  else if outcome.cancelled then some ⟨.cancelled, a.name ++ " cancelled"⟩
  else none

/-- The report that a command wrote, unless it reaches the cap. -/
def reportText (a : Analyzer) (limit : Nat) (invocation : Invocation) (report : Option Content) :
    Except Problem (Option String) :=
  match invocation.reportFile, report with
  | some file, some content =>
    if limit ≤ content.size then
      .error ⟨.outputOverflow, a.name ++ " report " ++ file.name ++ " reached the " ++
        Decimal.natText limit ++ " byte cap"⟩
    else .ok (some content.toText)
  | _, _ => .ok none

/-- The call for a command. -/
def callFor (a : Analyzer) (request : Request) (plan : Plan) (invocation : Invocation)
    (timeoutMs : Int) : Sandbox.Call where
  policy := a.policy
  arguments := invocation.arguments
  workingDirectory := invocation.workingDirectory
  timeoutMs
  maxOutputBytes := request.limits.maxOutputBytes
  gracePeriodMs := request.limits.gracePeriodMs
  cancelled := request.cancelled
  inputs := plan.inputs
  reportFile := invocation.reportFile

/-- What a reply says, unless the command was stopped or its report is too large. -/
def outputOf (a : Analyzer) (request : Request) (invocation : Invocation) (reply : Sandbox.Reply) :
    Except Problem Output :=
  match a.stopped? request reply.outcome with
  | some p => .error p
  | none =>
    (a.reportText request.limits.maxOutputBytes invocation reply.report).map fun report =>
      { invocation
        exitCode := reply.outcome.exitCode
        stdout := reply.outcome.stdoutText
        stderr := reply.outcome.stderrText
        report }

/-- Runs a command within the time that is left. -/
def execute (a : Analyzer) (runner : Sandbox.Runner σ) (request : Request) (deadline : Nat)
    (plan : Plan) (invocation : Invocation) : Session σ Output := do
  if request.cancelled then Session.fail .cancelled (a.name ++ " cancelled before start")
  let left ← Session.lift ((Sandbox.remainingMs (runner.clock (← get).world) deadline).mapError Failure.breach)
  if left ≤ 0 then throw (.problem (a.timeoutProblem request))
  let reply ← Session.perform (runner.run (a.callFor request plan invocation left))
  Session.lift ((a.outputOf request invocation reply).mapError Failure.problem)

/-! ## Reading outputs -/

/-- How many characters of the error output a message shows. -/
def tailLength : Nat := 400

/-- The problem of a command whose exit code does not go with its output. -/
def exitProblem (a : Analyzer) (output : Output) : Problem :=
  let tail := Text.takeLast tailLength (Text.strip output.stderr)
  let detail := a.name ++ " exited with " ++ Decimal.intText output.exitCode
  ⟨.nonZeroExit, if tail.isEmpty then detail else detail ++ ": " ++ tail⟩

/-- The problem of an output that cannot be read. If the command failed, it is the command's. -/
def unreadProblem (a : Analyzer) (output : Output) (p : Problem) : Problem :=
  if output.exitCode == 0 then p
  else ⟨.nonZeroExit, a.name ++ " exited with " ++ Decimal.intText output.exitCode ++ ": " ++ p.detail⟩

/-- Reads the output of a command. What was left out counts even if the exit code does not go with the
output. -/
def readChecked (a : Analyzer) (task : Task) (output : Output) : Session σ Reading := do
  match a.read task output with
  | .error (.problem p) => throw (.problem (a.unreadProblem output p))
  | .error (.breach b) => throw (.breach b)
  | .ok reading =>
    modify fun p => { p with dropped := p.dropped + reading.harvest.dropped }
    Session.warn reading.unread.toList
    if a.accepts output (!reading.harvest.issues.isEmpty) then return reading
    else throw (.problem (a.exitProblem output))

/-- Runs the commands one after another and reads what each of them printed. -/
def runAll (a : Analyzer) (runner : Sandbox.Runner σ) (request : Request) (task : Task)
    (deadline : Nat) (plan : Plan) : List Invocation → Session σ (List Reading)
  | [] => return []
  | invocation :: rest => do
    Session.advance .running
    let output ← a.execute runner request deadline plan invocation
    Session.advance .parsing
    let reading ← a.readChecked task output
    return reading :: (← a.runAll runner request task deadline plan rest)

/-! ## The whole run -/

/-- What is known of the tool: what the request tells, else what the tool answers. -/
def learn (a : Analyzer) (runner : Sandbox.Runner σ) (t : Tree) (request : Request) :
    Session σ Availability :=
  match request.availability with
  | some known => pure known
  | none => Session.perform fun world =>
      let (found, world) := a.probe runner t world
      (found.mapError Failure.breach, world)

/-- Everything up to the first command: the tool is available, its options are fine, and its root is
found. -/
def prepare (a : Analyzer) (runner : Sandbox.Runner σ) (t : Tree) (request : Request) :
    Session σ Path := do
  Session.advance .probing
  let availability ← a.learn runner t request
  modify fun p => { p with version := availability.version }
  Session.refuse (availability.problem? a.name)
  Session.advance .probed
  Session.advance .validatingInputs
  Session.lift ((a.checkSettings request.settings).mapError Failure.problem)
  Session.lift (a.locateRoot t request.projectRoot request.limits)

/-- The sources of a run, if the tool takes any. -/
def sources (a : Analyzer) (t : Tree) (request : Request) : Session σ (List Path) := do
  if a.takesFiles then
    let found ← Session.lift (a.collectFiles t request.projectRoot request.options request.limits)
    Session.warn found.warnings
    modify fun p => { p with filesAnalyzed := found.paths.length }
    return found.paths
  else return []

/-- The directory for the files of a run. -/
def scratchOf (a : Analyzer) (t : Tree) : Path :=
  (t.realPath (Path.ofString t.temporary)).child ("assay-" ++ a.name)

/-- What findings are normalized by. -/
def profile (a : Analyzer) (request : Request) (version : Option String) : Profile where
  tool := a.name
  toolVersion := version
  ecosystem := request.language.name
  defaultConfidence := a.defaultConfidence
  root := request.projectRoot

/-- The warning about records left out. -/
def droppedWarning (n : Nat) : List String :=
  if n == 0 then [] else ["dropped " ++ Decimal.natText n ++ " malformed record(s)"]

/-- The task of a run. -/
def taskFor (a : Analyzer) (t : Tree) (request : Request) (toolRoot : Path) (files : List Path) :
    Task where
  projectRoot := request.projectRoot
  toolRoot
  language := request.language
  options := request.options
  settings := request.settings
  scratch := a.scratchOf t
  files

/-- The commands of a task, unless it is refused. -/
def planned (a : Analyzer) (t : Tree) (task : Task) : Session σ Plan :=
  match a.plan t task with
  | .ok plan => pure plan
  | .error (.skipped reason) => throw (.skipped reason)
  | .error (.failed f) => throw (.ofFailure f)

/-- The problem of a run whose commands all left their sources unread. -/
def allUnread? (a : Analyzer) (readings : List Reading) : Option Problem :=
  if !readings.isEmpty && readings.all fun r => r.unread.isSome then
    some ⟨.nonZeroExit, a.name ++ " could not analyse any of " ++
      Decimal.natText readings.length ++ " input(s)"⟩
  else none

/-- The issues that the findings of all commands become. -/
def issuesFrom (a : Analyzer) (t : Tree) (request : Request) (readings : List Reading) :
    Session σ (List Issue) := do
  Session.advance .normalizing
  let raws := readings.flatMap fun r => r.harvest.issues
  let normalized ← Session.lift (((a.profile request (← get).version).normalize t
    (some request.options) raws).mapError Failure.breach)
  Session.warn normalized.warnings
  Session.warn (droppedWarning (← get).dropped)
  let issues ← Session.lift
    ((Issue.annotateAll normalized.issues a.category a.searchRadius).mapError Failure.breach)
  Session.advance .done
  return issues

/-- The issues of a run. -/
def issuesOf (a : Analyzer) (runner : Sandbox.Runner σ) (t : Tree) (request : Request)
    (deadline : Nat) : Session σ (List Issue) := do
  let toolRoot ← a.prepare runner t request
  let files ← a.sources t request
  let task := a.taskFor t request toolRoot files
  let plan ← a.planned t task
  let readings ← a.runAll runner request task deadline plan plan.invocations
  Session.refuse (a.allUnread? readings)
  a.issuesFrom t request readings

/-- The report on a run, and the phases that it went through. -/
structure Analysis where
  report : ToolReport
  history : List Phase
deriving Repr

/-- The head of the report on a run. -/
def headOf (a : Analyzer) (runner : Sandbox.Runner σ) (request : Request) (start : σ)
    (p : Progress σ) : ReportHead where
  tool := a.name
  version := p.version
  language := request.language.name
  target := request.projectRoot.toString
  startedAt := Moment.ofClock (runner.clock start)
  finishedAt := Moment.ofClock (runner.clock p.world)

/-- The end of a run: its last phase and its report. -/
def conclude (a : Analyzer) (runner : Sandbox.Runner σ) (request : Request) (start : σ) :
    Except Stop (List Issue) → Progress σ → Except Breach Analysis
  | .ok issues, p =>
    .ok ⟨(a.headOf runner request start p).success issues p.filesAnalyzed p.warnings p.dropped,
      p.lifecycle.history⟩
  | .error (.skipped reason), p =>
    (p.lifecycle.advance .done).map fun l =>
      ⟨(a.headOf runner request start p).skipped reason, l.history⟩
  | .error (.problem e), p =>
    (p.lifecycle.advance .failed).map fun l =>
      ⟨(a.headOf runner request start p).failed e p.filesAnalyzed p.warnings p.dropped, l.history⟩
  | .error (.breach b), _ => .error b

/-- When a run that starts now is out of time. -/
def deadlineOf (runner : Sandbox.Runner σ) (request : Request) (world : σ) : Except Breach Nat := do
  Sandbox.checkTime request.options.timeoutMs
  return runner.clock world + request.options.timeoutMs * 1000

/-- Analyses a project. The time of the run is counted from its start. -/
def analyze (a : Analyzer) (runner : Sandbox.Runner σ) (t : Tree) (request : Request) (world : σ) :
    Except Breach Analysis × σ :=
  match deadlineOf runner request world with
  | .error b => (.error b, world)
  | .ok deadline =>
    let start : Progress σ := { world, lifecycle := { tool := a.name } }
    let (outcome, p) := (a.issuesOf runner t request deadline).run.run start
    (a.conclude runner request world outcome p, p.world)

end Analyzer

end Assay

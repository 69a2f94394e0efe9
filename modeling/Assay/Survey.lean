import Assay.Analyzer.Analysis
import Assay.ProbeCache
import Assay.Schedule

/-!
# Surveys

A survey runs every selected tool on a project and joins their reports. Each tool has a report of its
own, whatever becomes of it: what a tool fails with beyond its own problems is turned into a problem of
that tool alone. The reports stand in the order of the schedule, in whatever order the tools come to
their ends.

`file` files the report of a tool that comes to its end, `inOrder` reads the reports in the order of the
schedule; `Surveyor.survey` is the whole run.
-/

namespace Assay

open Files

/-- A report with its place in the schedule. -/
structure Finished where
  order : Nat
  report : ToolReport
deriving Repr, DecidableEq

/-- The reports with one more filed at its place, which it takes from a report filed there before. -/
def file (results : List Finished) (f : Finished) : List Finished :=
  (results.filter fun g => g.order != f.order) ++ [f]

/-- The filed reports in the order of the schedule. -/
def inOrder (results : List Finished) : List ToolReport :=
  (results.mergeSort fun a b => decide (a.order ≤ b.order)).map (·.report)

/-- The reports of tools that came to their ends one after another. -/
def gather (finished : List Finished) : List ToolReport := inOrder (finished.foldl file [])

/-- What is thrown in the run of a tool beyond the tool's own problems. -/
structure Crash where
  /-- The operating system refused something. -/
  refused : Bool
  /-- The class of what is thrown, and its text. -/
  title : String
  text : String
deriving Repr, DecidableEq

/-- A breach that is thrown. -/
def Crash.ofBreach (b : Breach) : Crash := ⟨b.isRefusal, b.title, b.message⟩

/-- The problem that a crash in the run of a tool is reported as. -/
def Crash.problemOf (c : Crash) (tool : String) : Problem :=
  if c.refused then ⟨.processSpawnFailed, tool ++ ": " ++ c.text⟩
  else ⟨.unparseableOutput, tool ++ ": " ++ c.title ++ ": " ++ c.text⟩

/-- The report on the run of a scheduled tool that came to an end at some moment. -/
def Scheduled.reportOn (item : Scheduled) (root : Path) (now : Moment) :
    Except Crash ToolReport → ToolReport
  | .ok report => report
  | .error c =>
    let head : ReportHead :=
      { tool := item.analyzer.name, version := none, language := item.language.name
        target := root.toString, startedAt := now, finishedAt := now }
    head.failed (c.problemOf item.analyzer.name) 0 [] 0

/-- The finished report of a scheduled tool. -/
def Scheduled.finish (item : Scheduled) (root : Path) (now : Moment)
    (outcome : Except Crash ToolReport) : Finished :=
  ⟨item.order, item.reportOn root now outcome⟩

/-- What carries out surveys: a registry, a runner, and the probes remembered from earlier surveys. -/
structure Surveyor (σ : Type) where
  registry : Registry := Registry.standard
  runner : Sandbox.Runner σ
  cache : Option (ProbeCache Float) := none

namespace Surveyor

variable {σ : Type}

/-- The clock of the runner in seconds. -/
def seconds (s : Surveyor σ) (world : σ) : Float := (s.runner.clock world).toFloat / 1000000.0

/-- What is remembered, to begin with nothing under the lifetime that the options ask for. -/
def remembered (s : Surveyor σ) (o : AnalysisOptions) : ProbeCache Float :=
  s.cache.getD (ProbeCache.empty o.availabilityTtlSeconds)

/-- What is asked of a scheduled tool. -/
def requestFor (o : AnalysisOptions) (root : Path) (item : Scheduled) (known : Availability) :
    Request where
  projectRoot := root
  language := item.language
  options := o.block item.language
  limits := o.limits
  settings := (o.block item.language).settingsOf item.analyzer.name
  availability := some known

/-- Runs a scheduled tool. -/
def runOne (s : Surveyor σ) (t : Tree) (o : AnalysisOptions) (root : Path) (item : Scheduled)
    (cache : ProbeCache Float) (world : σ) : Except Breach ToolReport × ProbeCache Float × σ :=
  let key : ProbeKey := (item.language.name, item.analyzer.name)
  match cache.getOrProbe key s.seconds (item.analyzer.probe s.runner t) world with
  | (.error b, cache, world) => (.error b, cache, world)
  | (.ok known, cache, world) =>
    let (outcome, world) :=
      item.analyzer.analyze s.runner t (requestFor o root item known.availability) world
    (outcome.map (·.report), cache, world)

/-- Runs scheduled tools one after another. -/
def runEach (s : Surveyor σ) (t : Tree) (o : AnalysisOptions) (root : Path) :
    List Scheduled → ProbeCache Float → σ → List Finished × ProbeCache Float × σ
  | [], cache, world => ([], cache, world)
  | item :: rest, cache, world =>
    let (outcome, cache, world) := s.runOne t o root item cache world
    let now := Moment.ofClock (s.runner.clock world)
    let (others, cache, world) := s.runEach t o root rest cache world
    (item.finish root now (outcome.mapError Crash.ofBreach) :: others, cache, world)

/-- Runs the schedule. At least one tool has to be allowed to run at a time. -/
def execute (s : Surveyor σ) (t : Tree) (o : AnalysisOptions) (root : Path)
    (schedule : List Scheduled) (world : σ) :
    Except Breach (List ToolReport) × Surveyor σ × σ :=
  if schedule.isEmpty then (.ok [], s, world)
  else
    let cache := s.remembered o
    if o.workers ≤ 0 then
      (.error (.badValue "max_workers must be greater than 0"), { s with cache := some cache }, world)
    else
      let (finished, cache, world) := s.runEach t o root schedule cache world
      (.ok (gather finished), { s with cache := some cache }, world)

/-- The note on a project in which no language was found. -/
def noLanguagesNote : String := "no supported languages"

/-- The notes on what a survey could not look at. -/
def notes (s : Surveyor σ) (languages : List Language) : List String :=
  (if languages.isEmpty then [noLanguagesNote] else []) ++
    (languages.filter fun l => (s.registry.serving l).isEmpty).map fun l =>
      "no adapters registered for " ++ l.name

/-- What a survey is about: the root and the options, the languages of the project, and the tools that
run. -/
structure Survey where
  root : Path
  options : AnalysisOptions
  languages : List Language
  schedule : List Scheduled

/-- Everything about a survey that is settled before the first tool starts. The root is looked at before
options that could not be read. -/
def prepare (s : Surveyor σ) (t : Tree) (options : Except Failure AnalysisOptions)
    (project : String) : Except Failure Survey := do
  let root ← t.checkProjectRoot project
  let o ← options
  (s.registry.checkSelection o).mapError Failure.problem
  let languages ← (Language.detect t root o.limits.maxDepth).mapError Failure.breach
  let schedule ← (s.registry.schedule o languages).mapError Failure.problem
  return { root, options := o, languages, schedule }

/-- Surveys a project: the report, the surveyor with what it remembers, and the surroundings after
the run. -/
def survey (s : Surveyor σ) (t : Tree) (options : Except Failure AnalysisOptions) (project : String)
    (world : σ) : Except Failure RunReport × Surveyor σ × σ :=
  let start := s.runner.clock world
  match s.prepare t options project with
  | .error f => (.error f, s, world)
  | .ok found =>
    match s.execute t found.options found.root found.schedule world with
    | (.error b, s, world) => (.error (.breach b), s, world)
    | (.ok reports, s, world) =>
      let now := s.runner.clock world
      (.ok (RunReport.ofReports found.root.toString (found.languages.map Language.name) reports
        (Moment.ofClock start) (Moment.ofClock now) ((now - start) / 1000 : Nat)
        (s.notes found.languages)), s, world)

end Surveyor

end Assay

import Mathlib.Data.List.Nodup
import Mathlib.Logic.Relation
import Assay.Proofs.Outcome
import Assay.Survey

/-!
# Tools that end in any order

The tools of a survey run side by side, and any of them may be the next to end. Whatever the order, the
reports stand in the order of the schedule, and each says only what came of its own tool
(`Surveyor.reports_of_schedule`).
-/

namespace Assay

open Files

/-! ## Reports in order -/

/-- A report at a place of its own is added to the others. -/
theorem file_of_forall_ne {results : List Finished} {f : Finished}
    (h : ∀ g ∈ results, g.order ≠ f.order) : file results f = results ++ [f] := by
  unfold file
  rw [List.filter_eq_self.mpr]
  intro g hg
  simpa using h g hg

/-- Reports at places of their own are read in the order of their places, however they were filed. -/
theorem inOrder_eq_of_perm {results sorted : List Finished} (hperm : results.Perm sorted)
    (hsorted : (sorted.map (·.order)).Pairwise (· < ·)) :
    inOrder results = sorted.map (·.report) := by
  have hnodup : (sorted.map (·.order)).Nodup := hsorted.imp Nat.ne_of_lt
  have hmerge := List.mergeSort_perm results fun a b => decide (a.order ≤ b.order)
  have hascending : (results.mergeSort fun a b => decide (a.order ≤ b.order)).Pairwise
      fun a b => decide (a.order ≤ b.order) = true := by
    apply List.pairwise_mergeSort
    · simp only [decide_eq_true_eq]
      omega
    · simp only [Bool.or_eq_true, decide_eq_true_eq]
      omega
  unfold inOrder
  congr 1
  -- both rows ascend, and among these reports a place has one report only
  refine List.Perm.eq_of_pairwise ?_ hascending ?_ (hmerge.trans hperm)
  · intro a b ha hb hab hba
    have ha' : a ∈ sorted := hperm.subset (List.mem_mergeSort.mp ha)
    rw [decide_eq_true_eq] at hab hba
    exact List.inj_on_of_nodup_map hnodup ha' hb (Nat.le_antisymm hab hba)
  · refine (List.pairwise_map.mp hsorted).imp ?_
    intro a b h
    exact decide_eq_true (Nat.le_of_lt h)

/-! ## Places in a schedule -/

/-- Every tool has the place at which it stands. -/
def IsPlaced (planned : List Scheduled) : Prop := planned.map (·.order) = List.range planned.length

theorem Registry.isPlaced_scheduleTool {l : Language} {block : LanguageOptions}
    {planned planned' : List Scheduled} {a : Analyzer} (h : IsPlaced planned)
    (hadd : scheduleTool l block planned a = .ok planned') : IsPlaced planned' := by
  obtain ⟨_, -, rfl⟩ := map_eq_ok.mp hadd
  unfold IsPlaced at h ⊢
  rw [List.map_append, h, List.length_append, List.length_singleton, List.range_succ]
  rfl

/-- **A schedule places its tools one after another.** -/
theorem Registry.isPlaced_schedule {r : Registry} {o : AnalysisOptions} {languages : List Language}
    {planned : List Scheduled} (h : r.schedule o languages = .ok planned) : IsPlaced planned := by
  refine invariant_of_foldlM ?_ (rfl : IsPlaced []) h
  intro planned l planned' hplaced hlanguage
  refine invariant_of_foldlM ?_ hplaced hlanguage
  intro planned a planned' hplaced hadd
  exact isPlaced_scheduleTool hplaced hadd

/-! ## Jobs -/

/-- The breaches that count as refusals are those of the operating system's class. -/
theorem Crash.refused_ofBreach (b : Breach) :
    (Crash.ofBreach b).refused = true ↔ (Crash.ofBreach b).title = "OSError" := by
  cases b <;> simp [Crash.ofBreach, Breach.isRefusal, Breach.title]

/-- A scheduled tool, and what comes of its run. -/
structure Job where
  item : Scheduled
  outcome : Except Crash ToolReport

namespace Job

/-- The report on a job that came to its end at some moment. -/
def report (j : Job) (root : Path) (now : Moment) : ToolReport := j.item.reportOn root now j.outcome

/-- The report on a job, to be filed. -/
def finish (j : Job) (root : Path) (now : Moment) : Finished := j.item.finish root now j.outcome

/-- The report that a run returned stands as it is; a crash is reported as an error of its kind. -/
theorem report_cases (j : Job) (root : Path) (now : Moment) :
    match j.outcome with
    | .ok report => j.report root now = report
    | .error c =>
      (j.report root now).status = .error ∧ (j.report root now).issues = [] ∧
        (j.report root now).errorKind =
          some (if c.refused then .processSpawnFailed else .unparseableOutput) := by
  unfold report Scheduled.reportOn
  cases j.outcome with
  | ok report => rfl
  | error c =>
      refine ⟨rfl, rfl, ?_⟩
      show some (c.problemOf j.item.analyzer.name).kind = _
      unfold Crash.problemOf
      split <;> rfl

end Job

theorem Moment.microsecondsTo?_self (m : Moment) : m.microsecondsTo? m = some 0 := by
  unfold Moment.microsecondsTo?
  cases m.offset <;> simp

/-- The report without its dates. -/
def ToolReport.undated (r : ToolReport) : ToolReport :=
  { r with timestamp := default, startedAt := default, finishedAt := default }

/-- The moment at which a job comes to its end only dates its report. -/
theorem Job.undated_report (j : Job) (root : Path) (now now' : Moment) :
    (j.report root now).undated = (j.report root now').undated := by
  unfold Job.report Scheduled.reportOn
  cases j.outcome with
  | ok report => rfl
  | error c =>
      simp only [ReportHead.failed, ReportHead.durationMs, ToolReport.undated,
        Moment.microsecondsTo?_self]

/-! ## The pool -/

/-- The jobs that have not ended yet, and the reports filed so far. -/
structure Pool where
  waiting : List Job
  results : List Finished

namespace Pool

variable {root : Path} {moments : Nat → Moment} {jobs : List Job}

/-- Some job that has not ended yet ends, and its report is filed. -/
inductive Step (root : Path) (moments : Nat → Moment) : Pool → Pool → Prop where
  | ends (before after : List Job) (j : Job) (results : List Finished) :
      Step root moments ⟨before ++ j :: after, results⟩
        ⟨before ++ after, file results (j.finish root (moments j.item.order))⟩

/-- All jobs have ended, one after another in some order, and these are the reports. -/
def Ends (root : Path) (moments : Nat → Moment) (jobs : List Job) (reports : List ToolReport) : Prop :=
  ∃ results, Relation.ReflTransGen (Step root moments) ⟨jobs, []⟩ ⟨[], results⟩ ∧
    reports = inOrder results

/-- Every job either waits or has its report filed. -/
def Accounts (root : Path) (moments : Nat → Moment) (jobs : List Job) (pool : Pool) : Prop :=
  ∃ ended : List Job, (ended ++ pool.waiting).Perm jobs ∧
    pool.results = ended.map fun j => j.finish root (moments j.item.order)

/-- A job that ends is accounted for, as long as no two jobs have one place. -/
theorem Accounts.step {pool pool' : Pool} (hnodup : (jobs.map (·.item.order)).Nodup)
    (h : Accounts root moments jobs pool) (hstep : Step root moments pool pool') :
    Accounts root moments jobs pool' := by
  obtain ⟨before, after, j, results⟩ := hstep
  obtain ⟨ended, hperm, hresults⟩ := h
  have hnext : (ended ++ [j] ++ (before ++ after)).Perm jobs := by
    refine List.Perm.trans ?_ hperm
    rw [List.append_assoc, List.perm_append_left_iff]
    show (j :: (before ++ after)).Perm (before ++ j :: after)
    exact List.perm_middle.symm
  -- the place of the job is taken by none of those that have ended
  have hfresh : ∀ g ∈ results, g.order ≠ (j.finish root (moments j.item.order)).order := by
    intro g hg heq
    have hends : ((ended ++ [j]).map (·.item.order)).Nodup := by
      have hall := (hnext.map (·.item.order)).nodup_iff.mpr hnodup
      rw [List.map_append] at hall
      exact hall.of_append_left
    dsimp only at hresults
    rw [hresults] at hg
    obtain ⟨k, hk, rfl⟩ := List.mem_map.mp hg
    rw [List.map_append, List.nodup_append] at hends
    exact hends.2.2 _ (List.mem_map_of_mem hk) _ (List.mem_map_of_mem List.mem_cons_self) heq
  refine ⟨ended ++ [j], hnext, ?_⟩
  dsimp only at hresults ⊢
  rw [file_of_forall_ne hfresh, hresults, List.map_append]
  rfl

/-- Nothing is lost or filed twice on the way, in whatever order jobs end. -/
theorem Accounts.run {pool : Pool} (hnodup : (jobs.map (·.item.order)).Nodup)
    (hrun : Relation.ReflTransGen (Step root moments) ⟨jobs, []⟩ pool) :
    Accounts root moments jobs pool := by
  induction hrun with
  | refl => exact ⟨[], List.Perm.refl _, rfl⟩
  | tail _ hstep ih => exact ih.step hnodup hstep

/-- **The reports of jobs that have ended** are those of the jobs in the order of the schedule. -/
theorem Ends.eq_map {reports : List ToolReport} (horders : (jobs.map (·.item.order)).Pairwise (· < ·))
    (h : Ends root moments jobs reports) :
    reports = jobs.map fun j => j.report root (moments j.item.order) := by
  obtain ⟨results, hrun, rfl⟩ := h
  obtain ⟨ended, hperm, hresults⟩ := Accounts.run (horders.imp Nat.ne_of_lt) hrun
  rw [List.append_nil] at hperm
  dsimp only at hresults
  rw [hresults, inOrder_eq_of_perm (hperm.map _), List.map_map]
  · rfl
  · rw [List.map_map]
    exact horders

/-- Jobs may end one after another as they stand. -/
theorem run_inOrder (root : Path) (moments : Nat → Moment) (jobs : List Job) (results : List Finished) :
    Relation.ReflTransGen (Step root moments) ⟨jobs, results⟩
      ⟨[], (jobs.map fun j => j.finish root (moments j.item.order)).foldl file results⟩ := by
  induction jobs generalizing results with
  | nil => exact .refl
  | cons j rest ih => exact .head (.ends [] rest j results) (ih _)

end Pool

/-! ## The survey -/

namespace Surveyor

variable {σ : Type}

/-- What comes of a scheduled tool, from what is remembered and the surroundings on: its probe breaks off, or it
analyses the project with what is known of its availability, and breaks off or reports. -/
inductive ComesOf (s : Surveyor σ) (t : Tree) (o : AnalysisOptions) (root : Path) (item : Scheduled) :
    ProbeCache Float → σ → Except Crash ToolReport → ProbeCache Float → σ → Prop where
  | unprobed {cache cache' : ProbeCache Float} {world world' : σ} {b : Breach}
      (probed : cache.getOrProbe (item.language.name, item.analyzer.name) s.seconds
        (item.analyzer.probe s.runner t) world = (.error b, cache', world')) :
      ComesOf s t o root item cache world (.error (.ofBreach b)) cache' world'
  | broken {cache cache' : ProbeCache Float} {world world' world'' : σ} {known : ProbeEntry Float} {b : Breach}
      (probed : cache.getOrProbe (item.language.name, item.analyzer.name) s.seconds
        (item.analyzer.probe s.runner t) world = (.ok known, cache', world'))
      (analysed : item.analyzer.analyze s.runner t (requestFor o root item known.availability) world' =
        (.error b, world'')) :
      ComesOf s t o root item cache world (.error (.ofBreach b)) cache' world''
  | reported {cache cache' : ProbeCache Float} {world world' world'' : σ} {known : ProbeEntry Float}
      {run : Analyzer.Analysis}
      (probed : cache.getOrProbe (item.language.name, item.analyzer.name) s.seconds
        (item.analyzer.probe s.runner t) world = (.ok known, cache', world'))
      (analysed : item.analyzer.analyze s.runner t (requestFor o root item known.availability) world' =
        (.ok run, world'')) :
      ComesOf s t o root item cache world (.ok run.report) cache' world''

/-- Running a scheduled tool comes to what it says. -/
theorem comesOf_runOne {s : Surveyor σ} {t : Tree} {o : AnalysisOptions} {root : Path} {item : Scheduled}
    {cache cache' : ProbeCache Float} {world world' : σ} {outcome : Except Breach ToolReport}
    (h : s.runOne t o root item cache world = (outcome, cache', world')) :
    s.ComesOf t o root item cache world (outcome.mapError Crash.ofBreach) cache' world' := by
  unfold runOne at h
  dsimp only at h
  split at h
  · next probed =>
    obtain ⟨rfl, rfl, rfl⟩ := h
    exact .unprobed probed
  · next probed =>
    simp only [Prod.mk.injEq] at h
    obtain ⟨rfl, rfl, rfl⟩ := h
    cases hanalysed : item.analyzer.analyze s.runner t _ _ with
    | mk analysed world'' =>
        cases analysed with
        | error b => exact .broken probed hanalysed
        | ok run => exact .reported probed hanalysed

/-- These jobs are what comes of their tools, each from what the ones before it have left. -/
inductive Carries (s : Surveyor σ) (t : Tree) (o : AnalysisOptions) (root : Path) :
    ProbeCache Float → σ → List Job → Prop where
  | nil {cache : ProbeCache Float} {world : σ} : Carries s t o root cache world []
  | cons {cache cache' : ProbeCache Float} {world world' : σ} {item : Scheduled}
      {outcome : Except Crash ToolReport} {jobs : List Job}
      (first : s.ComesOf t o root item cache world outcome cache' world')
      (others : Carries s t o root cache' world' jobs) :
      Carries s t o root cache world (⟨item, outcome⟩ :: jobs)

/-- Tools that are run one after another are jobs that end as they stand. -/
theorem runEach_eq_map (s : Surveyor σ) (t : Tree) (o : AnalysisOptions) (root : Path)
    {schedule : List Scheduled} (hnodup : (schedule.map (·.order)).Nodup) (cache : ProbeCache Float)
    (world : σ) :
    ∃ (moments : Nat → Moment) (jobs : List Job), jobs.map (·.item) = schedule ∧
      s.Carries t o root cache world jobs ∧
      (s.runEach t o root schedule cache world).1 =
        jobs.map fun j => j.finish root (moments j.item.order) := by
  induction schedule generalizing cache world with
  | nil => exact ⟨fun _ => default, [], rfl, .nil, rfl⟩
  | cons item rest ih =>
      rw [List.map_cons, List.nodup_cons] at hnodup
      rcases hone : s.runOne t o root item cache world with ⟨outcome, cache', world'⟩
      obtain ⟨moments, jobs, hjobs, hcarries, hothers⟩ := ih hnodup.2 cache' world'
      -- the moment of the first tool is noted at its place, which no other one has
      refine ⟨fun k => if k = item.order then Moment.ofClock (s.runner.clock world') else moments k,
        ⟨item, outcome.mapError Crash.ofBreach⟩ :: jobs, ?_, .cons (comesOf_runOne hone) hcarries, ?_⟩
      · rw [List.map_cons, hjobs]
      · simp only [runEach, hone, hothers, List.map_cons, if_true]
        refine congrArg₂ _ rfl (List.map_congr_left ?_)
        intro j hj
        have hne : j.item.order ≠ item.order := by
          intro heq
          apply hnodup.1
          rw [← heq, ← hjobs]
          exact List.mem_map_of_mem (List.mem_map_of_mem hj)
        rw [if_neg hne]

/-- **A survey is a run of its pool**: its reports are those of jobs that have all ended, and the jobs are what
comes of the scheduled tools. -/
theorem execute_ends (s : Surveyor σ) (t : Tree) (o : AnalysisOptions) (root : Path)
    {schedule : List Scheduled} (hnodup : (schedule.map (·.order)).Nodup) (hworkers : 0 < o.workers)
    (world : σ) :
    ∃ (moments : Nat → Moment) (jobs : List Job) (reports : List ToolReport),
      (s.execute t o root schedule world).1 = .ok reports ∧ jobs.map (·.item) = schedule ∧
        s.Carries t o root (s.remembered o) world jobs ∧ Pool.Ends root moments jobs reports := by
  unfold execute
  split
  · next hempty =>
    obtain rfl := List.isEmpty_iff.mp hempty
    exact ⟨fun _ => default, [], [], rfl, rfl, .nil, ⟨[], .refl, by simp [inOrder]⟩⟩
  · dsimp only
    rw [if_neg (by omega)]
    obtain ⟨moments, jobs, hjobs, hcarries, hfinished⟩ :=
      s.runEach_eq_map t o root hnodup (s.remembered o) world
    refine ⟨moments, jobs, _, ?_, hjobs, hcarries, ⟨_, Pool.run_inOrder root moments jobs [], rfl⟩⟩
    rw [← hfinished]
    rfl

/-- **The reports of a schedule**, one for each tool and in its order, whatever comes of the tools and in
whatever order they end. Each report depends on what came of its own tool alone: where two runs agree on
that, they agree on the report but for its dates. A crash is an error of the kind that its class calls for:
what the operating system refuses is told apart from every other breach. A survey is such a run: what came of
each of its tools is what the probe of that tool and its analysis of the project came to, so its reports are
those, in the order of the schedule. -/
theorem reports_of_schedule (root : Path) {schedule : List Scheduled}
    (hplan : (schedule.map (·.order)).Pairwise (· < ·)) :
    (∀ (moments : Nat → Moment) (jobs : List Job) (reports : List ToolReport),
      jobs.map (·.item) = schedule → Pool.Ends root moments jobs reports →
      reports = jobs.map (fun j => j.report root (moments j.item.order)) ∧
        ∀ (moments' : Nat → Moment) (jobs' : List Job) (reports' : List ToolReport),
          jobs'.map (·.item) = schedule → Pool.Ends root moments' jobs' reports' →
          ∀ i : Nat, jobs'[i]? = jobs[i]? →
            reports'[i]?.map ToolReport.undated = reports[i]?.map ToolReport.undated) ∧
    (∀ (j : Job) (now : Moment),
      match j.outcome with
      | .ok report => j.report root now = report
      | .error c =>
        (j.report root now).status = .error ∧ (j.report root now).issues = [] ∧
          (j.report root now).errorKind =
            some (if c.refused then .processSpawnFailed else .unparseableOutput)) ∧
    (∀ b : Breach, (Crash.ofBreach b).refused = true ↔ (Crash.ofBreach b).title = "OSError") ∧
    ∀ (s : Surveyor σ) (t : Tree) (o : AnalysisOptions) (world : σ), 0 < o.workers →
      ∃ (moments : Nat → Moment) (jobs : List Job) (reports : List ToolReport),
        (s.execute t o root schedule world).1 = .ok reports ∧ jobs.map (·.item) = schedule ∧
          s.Carries t o root (s.remembered o) world jobs ∧ Pool.Ends root moments jobs reports ∧
          reports = jobs.map fun j => j.report root (moments j.item.order) := by
  have hordered {jobs : List Job} (hjobs : jobs.map (·.item) = schedule) :
      (jobs.map (·.item.order)).Pairwise (· < ·) := by
    rw [← hjobs, List.map_map] at hplan
    exact hplan
  refine ⟨?_, fun j now => j.report_cases root now, Crash.refused_ofBreach, ?_⟩
  · intro moments jobs reports hjobs hends
    have hreports := hends.eq_map (hordered hjobs)
    refine ⟨hreports, ?_⟩
    intro moments' jobs' reports' hjobs' hends' i hsame
    rw [hreports, hends'.eq_map (hordered hjobs'), List.getElem?_map, List.getElem?_map, hsame,
      Option.map_map, Option.map_map]
    refine Option.map_congr fun j _ => ?_
    exact j.undated_report root _ _
  · intro s t o world hworkers
    obtain ⟨moments, jobs, reports, hexecute, hjobs, hcarries, hends⟩ :=
      s.execute_ends t o root (hplan.imp Nat.ne_of_lt) hworkers world
    exact ⟨moments, jobs, reports, hexecute, hjobs, hcarries, hends, hends.eq_map (hordered hjobs)⟩

/-- A tool that the operating system refuses to start. -/
def refusedJob : Job := ⟨⟨0, .go, Analyzer.gosec⟩, .error ⟨true, "OSError", "refused"⟩⟩

/-- A tool that returns a report. -/
def fineJob : Job := ⟨⟨1, .go, Analyzer.staticcheck⟩, .ok default⟩

/-- A surveyor that cannot start anything. -/
def powerless : Surveyor Unit where
  runner := { run := fun _ world => (.error (.breach (.refused "refused")), world), clock := fun _ => 0 }
  cache := some { lifetime := 0 }

/-- Whatever it is to run, it comes to a refusal, and nothing is remembered of it. -/
theorem comesOf_powerless {t : Tree} {o : AnalysisOptions} {root : Path} {item : Scheduled}
    {cache : ProbeCache Float} {outcome : Except Crash ToolReport}
    (h : powerless.ComesOf t o root item { lifetime := 0 } () outcome cache ()) :
    cache = { lifetime := 0 } ∧ outcome = .error ⟨true, "OSError", "refused"⟩ := by
  cases h with
  | unprobed probed =>
      obtain ⟨hb, hcache⟩ := Prod.mk.inj probed
      obtain rfl := Except.error.inj hb
      exact ⟨(Prod.mk.inj hcache).1.symm, rfl⟩
  | broken probed => exact nomatch probed
  | reported probed => exact nomatch probed

/-- The second tool ends first, and its report still stands second. Where no tool can be started, both reports
say so. -/
theorem reports_of_schedule_reversed :
    (∃ first, Pool.Ends (Path.ofString "/work") (fun _ => default) [refusedJob, fineJob]
      [first, default] ∧ first.errorKind = some .processSpawnFailed) ∧
    ∀ (t : Tree) (o : AnalysisOptions), 0 < o.workers → ∃ first second,
      (powerless.execute t o (Path.ofString "/work") [refusedJob.item, fineJob.item] ()).1 =
        .ok [first, second] ∧
      first.errorKind = some .processSpawnFailed ∧ second.errorKind = some .processSpawnFailed := by
  have hrun : Pool.Ends (Path.ofString "/work") (fun _ => default) [refusedJob, fineJob]
      (inOrder (file (file [] (fineJob.finish (Path.ofString "/work") default))
        (refusedJob.finish (Path.ofString "/work") default))) :=
    ⟨_, .tail (.single (.ends [refusedJob] [] fineJob [])) (.ends [] [] refusedJob _), rfl⟩
  have hplan : ([refusedJob.item, fineJob.item].map (·.order)).Pairwise (· < ·) := by decide
  obtain ⟨hall, hkinds, -, hexecutes⟩ := @reports_of_schedule Unit (Path.ofString "/work") _ hplan
  have hrefused (item : Scheduled) (now : Moment) :
      (Job.report ⟨item, .error ⟨true, "OSError", "refused"⟩⟩ (Path.ofString "/work") now).errorKind =
        some .processSpawnFailed := (hkinds ⟨item, .error ⟨true, "OSError", "refused"⟩⟩ now).2.2
  refine ⟨?_, fun t o hworkers => ?_⟩
  · have hreports := (hall (fun _ => default) [refusedJob, fineJob] _ rfl hrun).1
    rw [hreports] at hrun
    exact ⟨_, hrun, hrefused refusedJob.item default⟩
  · obtain ⟨moments, jobs, reports, hexecute, hjobs, hcarries, -, rfl⟩ := hexecutes powerless t o () hworkers
    cases hcarries with
    | nil => exact nomatch hjobs
    | cons first others =>
      obtain ⟨rfl, rfl⟩ := comesOf_powerless first
      cases others with
      | nil => exact nomatch hjobs
      | cons second others =>
        obtain ⟨-, rfl⟩ := comesOf_powerless second
        cases others with
        | nil => exact ⟨_, _, hexecute, hrefused _ _, hrefused _ _⟩
        | cons _ _ => exact nomatch hjobs

end Surveyor

end Assay

import Assay.Proofs.Analyzer.Lifecycle
import Assay.Proofs.Correlate
import Assay.Proofs.Outcome

/-!
# Runs of a tool

A run is all or nothing. Whatever a runner replies, a report is either `ok` and holds the issues of all
commands, each of which was run to its end and read (`Analyzer.Completes`), or it holds no issue at all;
and its phases follow one another from `idle` to `done` or `failed` (`Analyzer.analyze_isFaithful`).
-/

namespace Assay

open Files

variable {σ : Type} {a : Analyzer} {runner : Sandbox.Runner σ} {t : Tree} {request : Request}

namespace Analyzer

/-! ## What a complete run goes through -/

/-- What is known of the tool: what the request tells, or else what the tool answers. -/
inductive Learns (a : Analyzer) (runner : Sandbox.Runner σ) (t : Tree) (request : Request) :
    σ → Availability → σ → Prop where
  | told {world : σ} {known : Availability} (h : request.availability = some known) :
      Learns a runner t request world known world
  | asked {world world' : σ} {found : Availability} (h : request.availability = none)
      (hprobe : a.probe runner t world = (.ok found, world')) :
      Learns a runner t request world found world'

/-- The sources that the tool is given: those discovered, if it takes any. -/
inductive Finds (a : Analyzer) (t : Tree) (request : Request) : List Path → Prop where
  | discovered {found : Discovered} (h : a.takesFiles = true)
      (hfound : a.collectFiles t request.projectRoot request.options request.limits = .ok found) :
      Finds a t request found.paths
  | none (h : a.takesFiles = false) : Finds a t request []

/-- The command is run to its end within the time that is left: nothing stops it, and its report is not
too large. -/
inductive Executes (a : Analyzer) (runner : Sandbox.Runner σ) (request : Request) (deadline : Nat)
    (plan : Plan) (invocation : Invocation) : σ → Output → σ → Prop where
  | intro {world world' : σ} {left : Int} {reply : Sandbox.Reply} {report : Option String}
      (notCancelled : request.cancelled = false)
      (remaining : Sandbox.remainingMs (runner.clock world) deadline = .ok left) (inTime : 0 < left)
      (replied : runner.run (a.callFor request plan invocation left) world = (.ok reply, world'))
      (notTimedOut : reply.outcome.timedOut = false)
      (notOverflowed : reply.outcome.overflowed = false)
      (notStopped : reply.outcome.cancelled = false)
      (fits : a.reportText request.limits.maxOutputBytes invocation reply.report = .ok report) :
      Executes a runner request deadline plan invocation world
        { invocation
          exitCode := reply.outcome.exitCode
          stdout := reply.outcome.stdoutText
          stderr := reply.outcome.stderrText
          report } world'

/-- The output can be read, and the exit code goes with it. -/
structure Accepts (a : Analyzer) (task : Task) (output : Output) (reading : Reading) : Prop where
  read : a.read task output = .ok reading
  exit : a.accepts output (!reading.harvest.issues.isEmpty) = true

/-- The commands are run one after another, and the output of each is accepted before the next one
starts. -/
inductive RunsAll (a : Analyzer) (runner : Sandbox.Runner σ) (request : Request) (task : Task)
    (deadline : Nat) (plan : Plan) : σ → List Invocation → List Reading → σ → Prop where
  | nil {world : σ} : RunsAll a runner request task deadline plan world [] [] world
  | cons {world world' world'' : σ} {invocation : Invocation} {rest : List Invocation}
      {output : Output} {reading : Reading} {readings : List Reading}
      (executed : a.Executes runner request deadline plan invocation world output world')
      (accepted : a.Accepts task output reading)
      (others : RunsAll a runner request task deadline plan world' rest readings world'') :
      RunsAll a runner request task deadline plan world (invocation :: rest) (reading :: readings)
        world''

/-- A run from its start to its end. Its issues are those that all findings of all commands, in order,
become. -/
inductive Completes (a : Analyzer) (runner : Sandbox.Runner σ) (t : Tree) (request : Request)
    (start : σ) : List Issue → Prop where
  | intro {availability : Availability} {deadline : Nat} {world world' : σ} {toolRoot : Path}
      {files : List Path} {plan : Plan} {readings : List Reading} {n : Normalized} {issues : List Issue}
      (timed : deadlineOf runner request start = .ok deadline)
      (learned : a.Learns runner t request start availability world)
      (available : availability.available = true)
      (settings : a.checkSettings request.settings = .ok ())
      (rooted : a.locateRoot t request.projectRoot request.limits = .ok toolRoot)
      (found : a.Finds t request files)
      (planned : a.plan t (a.taskFor t request toolRoot files) = .ok plan)
      (ran : a.RunsAll runner request (a.taskFor t request toolRoot files) deadline plan world
        plan.invocations readings world')
      (someRead : readings ≠ [] → ∃ r ∈ readings, r.unread = none)
      (normalized : (a.profile request availability.version).normalize t (some request.options)
        (readings.flatMap fun r => r.harvest.issues) = .ok n)
      (stamped : Issue.annotateAll n.issues a.category a.searchRadius = .ok issues) :
      Completes a runner t request start issues

/-! ## How a run stops -/

/-- The breaches that a run may end in: each was met by one of the parts that it calls. -/
inductive Strays (a : Analyzer) (runner : Sandbox.Runner σ) (t : Tree) (request : Request) :
    Breach → Prop where
  | timing {b : Breach} {world : σ} (h : deadlineOf runner request world = .error b) :
      Strays a runner t request b
  | waiting {b : Breach} {deadline : Nat} {world : σ}
      (h : Sandbox.remainingMs (runner.clock world) deadline = .error b) :
      Strays a runner t request b
  | probing {b : Breach} {world : σ} (h : (a.probe runner t world).1 = .error b) :
      Strays a runner t request b
  | locating {b : Breach}
      (h : a.locateRoot t request.projectRoot request.limits = .error (.breach b)) :
      Strays a runner t request b
  | collecting {b : Breach}
      (h : a.collectFiles t request.projectRoot request.options request.limits = .error (.breach b)) :
      Strays a runner t request b
  | planning {b : Breach} {toolRoot : Path} {files : List Path}
      (h : a.plan t (a.taskFor t request toolRoot files) = .error (.failed (.breach b))) :
      Strays a runner t request b
  | running {b : Breach} {plan : Plan} {invocation : Invocation} {left : Int} {world : σ}
      (h : (runner.run (a.callFor request plan invocation left) world).1 = .error (.breach b)) :
      Strays a runner t request b
  | reading {b : Breach} {toolRoot : Path} {files : List Path} {output : Output}
      (h : a.read (a.taskFor t request toolRoot files) output = .error (.breach b)) :
      Strays a runner t request b
  | normalizing {b : Breach} {version : Option String} {raws : List RawIssue}
      (h : (a.profile request version).normalize t (some request.options) raws = .error b) :
      Strays a runner t request b

/-- Where a run may stop, and what for: it can still be brought to its last phase. -/
inductive Halts (a : Analyzer) (runner : Sandbox.Runner σ) (t : Tree) (request : Request) :
    Stop → Progress σ → Prop where
  | skipped {reason : String} {p : Progress σ} (legal : p.lifecycle.IsLegal)
      (h : p.lifecycle.phase = .validatingInputs) : Halts a runner t request (.skipped reason) p
  | problem {e : Problem} {p : Progress σ} (legal : p.lifecycle.IsLegal)
      (h : p.lifecycle.phase.isFinal = false) : Halts a runner t request (.problem e) p
  | breach {b : Breach} {p : Progress σ} (h : a.Strays runner t request b) :
      Halts a runner t request (.breach b) p

/-- A failure stops a run before its last phase. -/
theorem Halts.ofFailure {f : Failure} {p : Progress σ} (legal : p.lifecycle.IsLegal)
    (h : p.lifecycle.phase.isFinal = false)
    (hf : ∀ b, f = .breach b → a.Strays runner t request b) :
    a.Halts runner t request (.ofFailure f) p := by
  cases f with
  | problem e => exact .problem legal h
  | breach b => exact .breach (hf b rfl)

/-! ## Running one command -/

open Session

variable {toolRoot : Path} {files : List Path} {plan : Plan} {invocation : Invocation} {deadline : Nat}
  {p : Progress σ}

theorem stopped?_eq_none {outcome : Sandbox.Outcome} :
    a.stopped? request outcome = none ↔
      outcome.timedOut = false ∧ outcome.overflowed = false ∧ outcome.cancelled = false := by
  unfold stopped?
  split
  · next h => simp [h]
  next h =>
  split
  · next h' => simp [h']
  next h' =>
  split
  · next h'' => simp [h'']
  · next h'' => simp [h, h', h'']

/-- A reply has an output if nothing stopped the command and its report is not too large. -/
theorem outputOf_eq_ok {reply : Sandbox.Reply} {output : Output}
    (h : a.outputOf request invocation reply = .ok output) :
    (reply.outcome.timedOut = false ∧ reply.outcome.overflowed = false ∧
      reply.outcome.cancelled = false) ∧
    ∃ report, a.reportText request.limits.maxOutputBytes invocation reply.report = .ok report ∧
      { invocation, exitCode := reply.outcome.exitCode, stdout := reply.outcome.stdoutText,
        stderr := reply.outcome.stderrText, report } = output := by
  unfold outputOf at h
  split at h
  · simp at h
  · next hstopped => exact ⟨stopped?_eq_none.mp hstopped, map_eq_ok.mp h⟩

/-- A command that is run changes the surroundings and nothing else. -/
theorem ensures_execute (legal : p.lifecycle.IsLegal) (hphase : p.lifecycle.phase.isFinal = false) :
    Ensures (a.execute runner request deadline plan invocation)
      (fun output p' => a.Executes runner request deadline plan invocation p.world output p'.world ∧
        p'.lifecycle = p.lifecycle ∧ p'.version = p.version)
      (a.Halts runner t request) p := by
  unfold execute
  by_cases hcancelled : request.cancelled = true
  · rw [if_pos hcancelled]
    exact Halts.problem legal hphase
  rw [if_neg hcancelled]
  dsimp only
  rw [ensures_bind, ensures_get, ensures_bind, ensures_lift]
  refine ⟨?_, ?_⟩
  case refine_2 =>
    intro f hf
    obtain ⟨b, hb, rfl⟩ := mapError_eq_error.mp hf
    exact Halts.breach (.waiting hb)
  intro left hremaining
  by_cases hleft : left ≤ 0
  · rw [if_pos hleft, ensures_bind]
    exact Halts.problem legal hphase
  rw [if_neg hleft, ensures_bind, ensures_perform, ensures_lift]
  -- there is time left, so the command is run: its output is read, or the runner itself fails
  rcases hrun : runner.run (a.callFor request plan invocation left) p.world with ⟨answer, world⟩
  refine ⟨?_, ?_⟩
  · rintro reply rfl
    rw [ensures_lift]
    refine ⟨?_, ?_⟩
    · intro output houtput
      rw [mapError_eq_ok] at houtput
      obtain ⟨⟨htimedOut, hoverflowed, hstopped⟩, report, hreport, rfl⟩ := outputOf_eq_ok houtput
      refine ⟨.intro ?_ (mapError_eq_ok.mp hremaining) (by omega) hrun htimedOut hoverflowed hstopped hreport,
        rfl, rfl⟩
      simpa using hcancelled
    · intro f hf
      obtain ⟨e, -, rfl⟩ := mapError_eq_error.mp hf
      exact Halts.problem legal hphase
  · rintro f rfl
    refine Halts.ofFailure legal hphase fun b hb => ?_
    exact .running (by rw [hrun, hb])

/-! ## Reading one output -/

theorem ensures_readChecked {output : Output} (legal : p.lifecycle.IsLegal)
    (hphase : p.lifecycle.phase.isFinal = false) :
    Ensures (a.readChecked (a.taskFor t request toolRoot files) output)
      (fun reading p' =>
        a.Accepts (a.taskFor t request toolRoot files) output reading ∧ p'.world = p.world ∧
        p'.lifecycle = p.lifecycle ∧ p'.version = p.version)
      (a.Halts runner t request) p := by
  unfold readChecked
  split
  · exact Halts.problem legal hphase
  · next b hread => exact Halts.breach (.reading hread)
  · next reading hread =>
    rw [ensures_bind, ensures_modify, ensures_bind, ensures_warn]
    split
    · next hexit => exact ⟨⟨hread, hexit⟩, rfl, rfl, rfl⟩
    · exact Halts.problem legal hphase

/-! ## Running all commands -/

/-- The phases in which the next command may start, or the findings may be normalized. -/
def betweenCommands : List Phase := [.validatingInputs, .parsing]

theorem leadsTo_of_betweenCommands : ∀ q ∈ betweenCommands,
    q.leadsTo .running = true ∧ q.leadsTo .normalizing = true ∧ q.isFinal = false := by decide

/-- **The commands of a run** are all run and read, or the run stops. -/
theorem ensures_runAll {invocations : List Invocation} (legal : p.lifecycle.IsLegal)
    (hphase : p.lifecycle.phase ∈ betweenCommands) :
    Ensures (a.runAll runner request (a.taskFor t request toolRoot files) deadline plan invocations)
      (fun readings p' =>
        a.RunsAll runner request (a.taskFor t request toolRoot files) deadline plan p.world invocations
          readings p'.world ∧
          p'.lifecycle.IsLegal ∧ p'.lifecycle.phase ∈ betweenCommands ∧ p'.version = p.version)
      (a.Halts runner t request) p := by
  induction invocations generalizing p with
  | nil => exact ⟨.nil, legal, hphase, rfl⟩
  | cons invocation rest ih =>
      have hrunning := (leadsTo_of_betweenCommands _ hphase).1
      rw [runAll, ensures_bind, ensures_advance hrunning]
      refine (ensures_execute (legal.enter hrunning) rfl).bind ?_
      rintro output p₁ ⟨hexecuted, hlifecycle, hversion⟩
      -- the command has left its phase as it was, so its output may be read
      have hparsing : p₁.lifecycle.phase.leadsTo .parsing = true := by rw [hlifecycle]; rfl
      have legal₁ : p₁.lifecycle.IsLegal := by rw [hlifecycle]; exact legal.enter hrunning
      rw [ensures_bind, ensures_advance hparsing]
      refine (ensures_readChecked (legal₁.enter hparsing) rfl).bind ?_
      rintro reading p₂ ⟨haccepted, hworld, hlifecycle₂, hversion₂⟩
      have legal₂ : p₂.lifecycle.IsLegal := by rw [hlifecycle₂]; exact legal₁.enter hparsing
      have hphase₂ : p₂.lifecycle.phase ∈ betweenCommands := by
        rw [hlifecycle₂]
        exact List.mem_cons_of_mem _ List.mem_cons_self
      refine (ih legal₂ hphase₂).bind ?_
      rintro readings p₃ ⟨hothers, legal₃, hphase₃, hversion₃⟩
      rw [hworld] at hothers
      refine ⟨.cons hexecuted haccepted hothers, legal₃, hphase₃, ?_⟩
      rw [hversion₃, hversion₂]
      exact hversion

/-! ## Before and after the commands -/

/-- What is learned of the tool leaves the run in its phase. -/
theorem ensures_learn :
    Ensures (a.learn runner t request)
      (fun availability p' => a.Learns runner t request p.world availability p'.world ∧
        p'.lifecycle = p.lifecycle)
      (a.Halts runner t request) p := by
  unfold learn
  split
  · next known hknown => exact ⟨.told hknown, rfl⟩
  · next hunknown =>
    rw [ensures_perform, ensures_lift]
    -- what nobody has told is asked of the tool, which changes the surroundings
    rcases hprobe : a.probe runner t p.world with ⟨outcome, world⟩
    refine ⟨?_, ?_⟩
    · intro found hfound
      obtain rfl := mapError_eq_ok.mp hfound
      exact ⟨.asked hunknown hprobe, rfl⟩
    · intro f hf
      obtain ⟨b, rfl, rfl⟩ := mapError_eq_error.mp hf
      exact Halts.breach (.probing (by rw [hprobe]))

theorem problem?_eq_none {availability : Availability} {tool : String} :
    availability.problem? tool = none ↔ availability.available = true := by
  unfold Availability.problem?
  split
  · next h => simp [h]
  · next h => simp [h]

/-- A run that gets as far as its commands knows of a tool that can be used, with options that it takes
and a root that was found. -/
theorem ensures_prepare (legal : p.lifecycle.IsLegal) (hidle : p.lifecycle.phase = .idle) :
    Ensures (a.prepare runner t request)
      (fun toolRoot p' => ∃ availability : Availability,
        (a.Learns runner t request p.world availability p'.world ∧ availability.available = true ∧
          a.checkSettings request.settings = .ok () ∧
          a.locateRoot t request.projectRoot request.limits = .ok toolRoot) ∧
        p'.version = availability.version ∧ p'.lifecycle.IsLegal ∧
          p'.lifecycle.phase = .validatingInputs)
      (a.Halts runner t request) p := by
  have hprobing : p.lifecycle.phase.leadsTo .probing = true := by rw [hidle]; rfl
  unfold prepare
  rw [ensures_bind, ensures_advance hprobing]
  refine ensures_learn.bind ?_
  rintro availability p₁ ⟨hlearns, hlifecycle⟩
  have legal₁ : p₁.lifecycle.IsLegal := by rw [hlifecycle]; exact legal.enter hprobing
  have hphase₁ : p₁.lifecycle.phase = .probing := by rw [hlifecycle]; rfl
  -- the version is noted even if the tool cannot be used
  rw [ensures_bind, ensures_modify, ensures_bind, ensures_refuse]
  refine ⟨?_, fun e _ => .problem legal₁ (by rw [hphase₁]; rfl)⟩
  intro havailable
  have hprobed : p₁.lifecycle.phase.leadsTo .probed = true := by rw [hphase₁]; rfl
  have legal₂ : ((p₁.lifecycle.enter .probed).enter .validatingInputs).IsLegal :=
    (legal₁.enter hprobed).enter rfl
  rw [ensures_bind]
  refine (ensures_advance (p := { p₁ with version := availability.version }) hprobed).mpr ?_
  rw [ensures_bind, ensures_advance rfl, ensures_bind, ensures_lift]
  refine ⟨?_, ?_⟩
  · intro _ hsettings
    rw [ensures_lift]
    refine ⟨?_, ?_⟩
    · intro toolRoot hroot
      exact ⟨availability, ⟨hlearns, problem?_eq_none.mp havailable, mapError_eq_ok.mp hsettings, hroot⟩,
        rfl, legal₂, rfl⟩
    · rintro f hf
      exact Halts.ofFailure legal₂ rfl fun b hb => .locating (hb ▸ hf)
  · intro f hf
    obtain ⟨e, -, rfl⟩ := mapError_eq_error.mp hf
    exact Halts.problem legal₂ rfl

theorem ensures_sources (legal : p.lifecycle.IsLegal) (hphase : p.lifecycle.phase.isFinal = false) :
    Ensures (a.sources t request)
      (fun files p' => a.Finds t request files ∧ p'.world = p.world ∧ p'.lifecycle = p.lifecycle ∧
        p'.version = p.version)
      (a.Halts runner t request) p := by
  unfold sources
  split
  · next htakes =>
    rw [ensures_bind, ensures_lift]
    refine ⟨?_, ?_⟩
    · intro found hfound
      exact ⟨.discovered htakes hfound, rfl, rfl, rfl⟩
    · intro f hf
      exact Halts.ofFailure legal hphase fun b hb => .collecting (hb ▸ hf)
  · next htakes => exact ⟨.none (Bool.eq_false_iff.mpr htakes), rfl, rfl, rfl⟩

theorem ensures_planned (legal : p.lifecycle.IsLegal)
    (hphase : p.lifecycle.phase = .validatingInputs) :
    Ensures (a.planned t (a.taskFor t request toolRoot files))
      (fun plan p' => a.plan t (a.taskFor t request toolRoot files) = .ok plan ∧ p' = p)
      (a.Halts runner t request) p := by
  unfold planned
  split
  · next plan hplan => exact ⟨hplan, rfl⟩
  · exact Halts.skipped legal hphase
  · next f hplan =>
    refine Halts.ofFailure legal (by rw [hphase]; rfl) fun b hb => ?_
    exact .planning (hb ▸ hplan)

theorem allUnread?_eq_none {readings : List Reading} (h : a.allUnread? readings = none)
    (hne : readings ≠ []) : ∃ r ∈ readings, r.unread = none := by
  unfold allUnread? at h
  split at h
  · simp at h
  · next hread => simpa [hne] using hread

/-- The findings become issues, and the run is done. -/
theorem ensures_issuesFrom {readings : List Reading} (legal : p.lifecycle.IsLegal)
    (hphase : p.lifecycle.phase ∈ betweenCommands) :
    Ensures (a.issuesFrom t request readings)
      (fun issues p' => ∃ n : Normalized,
        (a.profile request p.version).normalize t (some request.options)
          (readings.flatMap fun r => r.harvest.issues) = .ok n ∧
        Issue.annotateAll n.issues a.category a.searchRadius = .ok issues ∧
        p'.lifecycle.IsLegal ∧ p'.lifecycle.phase = .done)
      (a.Halts runner t request) p := by
  have hnormalizing := (leadsTo_of_betweenCommands _ hphase).2.1
  have legal₁ := legal.enter hnormalizing
  unfold issuesFrom
  rw [ensures_bind, ensures_advance hnormalizing, ensures_bind, ensures_get, ensures_bind, ensures_lift]
  refine ⟨?_, ?_⟩
  · intro n hn
    rw [mapError_eq_ok] at hn
    rw [ensures_bind, ensures_warn, ensures_bind, ensures_get, ensures_bind, ensures_warn, ensures_bind,
      ensures_lift]
    refine ⟨?_, ?_⟩
    · intro issues hissues
      rw [ensures_bind, ensures_advance rfl, ensures_pure]
      exact ⟨n, hn, mapError_eq_ok.mp hissues, legal₁.enter rfl, rfl⟩
    · intro f hf
      rw [Issue.annotateAll_of_normalize hn] at hf
      exact nomatch hf
  · intro f hf
    obtain ⟨b, hb, rfl⟩ := mapError_eq_error.mp hf
    exact Halts.breach (.normalizing hb)

/-! ## The whole run -/

/-- **A run comes to its end or stops**: it has gone through all that a complete run goes through, or it
can still be brought to its last phase. -/
theorem ensures_issuesOf (htimed : deadlineOf runner request p.world = .ok deadline)
    (legal : p.lifecycle.IsLegal) (hidle : p.lifecycle.phase = .idle) :
    Ensures (a.issuesOf runner t request deadline)
      (fun issues p' => a.Completes runner t request p.world issues ∧ p'.lifecycle.IsLegal ∧
        p'.lifecycle.phase = .done)
      (a.Halts runner t request) p := by
  unfold issuesOf
  refine (ensures_prepare legal hidle).bind ?_
  rintro toolRoot p₁ ⟨availability, ⟨hlearns, havailable, hsettings, hroot⟩, hversion, legal₁, hphase₁⟩
  refine (ensures_sources legal₁ (by rw [hphase₁]; rfl)).bind ?_
  rintro files p₂ ⟨hfound, hworld₂, hlifecycle₂, hversion₂⟩
  -- discovering sources starts no command, so the phase and the surroundings are as they were
  rw [← hlifecycle₂] at legal₁ hphase₁
  refine (ensures_planned legal₁ hphase₁).bind ?_
  rintro plan p₂ ⟨hplan, rfl⟩
  have hbetween : p₂.lifecycle.phase ∈ betweenCommands := by
    rw [hphase₁]
    exact List.mem_cons_self
  refine (ensures_runAll legal₁ hbetween).bind ?_
  rintro readings p₃ ⟨hran, legal₃, hphase₃, hversion₃⟩
  rw [ensures_bind, ensures_refuse]
  refine ⟨?_, fun e _ => .problem legal₃ (leadsTo_of_betweenCommands _ hphase₃).2.2⟩
  intro hread
  refine (ensures_issuesFrom legal₃ hphase₃).imp ?_ fun stop p' h => h
  rintro issues p₄ ⟨n, hn, hstamped, legal₄, hphase₄⟩
  rw [hversion₃, hversion₂, hversion] at hn
  rw [hworld₂] at hran
  exact ⟨.intro htimed hlearns havailable hsettings hroot hfound hplan hran (allUnread?_eq_none hread) hn
    hstamped, legal₄, hphase₄⟩

/-- What a report and its history say of a run is what has happened. -/
structure Analysis.IsFaithful (a : Analyzer) (runner : Sandbox.Runner σ) (t : Tree)
    (request : Request) (start : σ) (analysis : Analysis) : Prop where
  error : analysis.report.status = .error ↔ analysis.report.error.isSome = true
  empty : analysis.report.status ≠ .ok → analysis.report.issues = []
  complete : analysis.report.status = .ok →
    a.Completes runner t request start analysis.report.issues
  legal : IsLegalHistory analysis.history
  last : analysis.history.getLast? =
    some (if analysis.report.status = .error then .failed else .done)

theorem conclude_isFaithful {outcome : Except Stop (List Issue)} {start : σ}
    (h : match outcome with
      | .ok issues => a.Completes runner t request start issues ∧ p.lifecycle.IsLegal ∧
          p.lifecycle.phase = .done
      | .error stop => a.Halts runner t request stop p) :
    match a.conclude runner request start outcome p with
    | .ok analysis => analysis.IsFaithful a runner t request start
    | .error b => a.Strays runner t request b := by
  cases outcome with
  | ok issues =>
      obtain ⟨hcompletes, legal, hdone⟩ := h
      exact
        { error := by simp [ReportHead.success]
          empty := by simp [ReportHead.success]
          complete := fun _ => hcompletes
          legal := legal.noted
          last := by rw [legal.last, hdone]; rfl }
  -- a run that was stopped is brought to the last phase that goes with the reason
  | error stop =>
      cases h with
      | skipped legal hphase =>
          have hdone : p.lifecycle.phase.leadsTo .done = true := by rw [hphase]; rfl
          rw [conclude, Lifecycle.advance_of_leadsTo hdone]
          exact
            { error := by simp [ReportHead.skipped]
              empty := fun _ => rfl
              complete := by simp [ReportHead.skipped]
              legal := (legal.enter hdone).noted
              last := (legal.enter hdone).last }
      | problem legal hphase =>
          have hfailed := Phase.leadsTo_failed hphase
          rw [conclude, Lifecycle.advance_of_leadsTo hfailed]
          exact
            { error := by simp [ReportHead.failed]
              empty := fun _ => rfl
              complete := by simp [ReportHead.failed]
              legal := (legal.enter hfailed).noted
              last := (legal.enter hfailed).last }
      | breach hstrays => exact hstrays

/-- **Every run is all or nothing.** Whatever the runner replies, a report is faithful: it is `ok` only
after a complete run, whose issues it holds, and holds no issue otherwise, and its phases lead from
`idle` to the phase that goes with its status. What is no report is a breach that a part of the run
met, never a step that the lifecycle does not have. -/
theorem analyze_isFaithful (a : Analyzer) (runner : Sandbox.Runner σ) (t : Tree) (request : Request)
    (world : σ) :
    match (a.analyze runner t request world).1 with
    | .ok analysis => analysis.IsFaithful a runner t request world
    | .error b => a.Strays runner t request b := by
  unfold analyze
  cases htimed : deadlineOf runner request world with
  | error b => exact .timing htimed
  | ok deadline =>
      have hends : Ensures (a.issuesOf runner t request deadline) _
          (a.Halts runner t request) { world, lifecycle := { tool := a.name } } :=
        ensures_issuesOf (p := { world, lifecycle := { tool := a.name } }) htimed
          (Lifecycle.isLegal_start a.name) rfl
      unfold Ensures at hends
      rcases hrun : (a.issuesOf runner t request deadline).run.run
        { world, lifecycle := { tool := a.name } } with ⟨outcome, p⟩
      rw [hrun] at hends
      dsimp only
      rw [hrun]
      refine conclude_isFaithful ?_
      cases outcome with
      | ok issues => exact hends
      | error stop => exact hends

end Analyzer

end Assay

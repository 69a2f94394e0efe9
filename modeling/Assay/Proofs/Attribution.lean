import Assay.Proofs.Schedule

/-!
# Whose settings count

A tool that serves several languages of a project runs once, for the first of them whose block selects it:
the tool is attributed to that language. The main result, `starts_iff`, says when a run starts: the options
name tools that there are, and every tool takes its settings in the block of the language that it is
attributed to. What the blocks of the other languages say to the tool is not looked at, so settings that
no tool takes can go unnoticed (`starts_with_refused_settings`).
-/

namespace Assay

namespace Registry

variable {r : Registry} {o : AnalysisOptions} {languages : List Language}

/-- The language that the tool of a name runs for: the first one that it serves and that selects it. -/
def attributed? (r : Registry) (o : AnalysisOptions) (languages : List Language) (name : String) :
    Option Language :=
  languages.find? fun l => (r.serving l).any (·.name == name) && (o.block l).selects name

/-- A run starts: the selection names tools that there are, and the tools can be scheduled. -/
def Starts (r : Registry) (o : AnalysisOptions) (languages : List Language) : Prop :=
  r.checkSelection o = .ok () ∧ ∃ planned, r.schedule o languages = .ok planned

theorem runs_iff {name : String} : r.Runs o languages name ↔
    ∃ l ∈ languages, ((r.serving l).any (·.name == name) && (o.block l).selects name) = true := by
  unfold Runs
  refine exists_congr fun l => and_congr_right fun _ => ?_
  rw [Bool.and_eq_true, List.any_eq_true]
  constructor
  · rintro ⟨a, ha, hname, hselects⟩
    exact ⟨⟨a, ha, beq_iff_eq.mpr hname⟩, hselects⟩
  · rintro ⟨⟨a, ha, hname⟩, hselects⟩
    exact ⟨a, ha, beq_iff_eq.mp hname, hselects⟩

/-- A tool is attributed to a language if the block selects it and it runs for no language before. -/
theorem attributed?_eq_some {l : Language} {a : Analyzer} (ha : a ∈ r.serving l) :
    r.attributed? o languages a.name = some l ↔ (o.block l).selects a.name = true ∧
      ∃ before after, languages = before ++ l :: after ∧ ¬ r.Runs o before a.name := by
  have hserves : (r.serving l).any (·.name == a.name) = true :=
    List.any_eq_true.mpr ⟨a, ha, beq_iff_eq.mpr rfl⟩
  have hbefore (before : List Language) : ¬ r.Runs o before a.name ↔ ∀ k ∈ before,
      (!((r.serving k).any (·.name == a.name) && (o.block k).selects a.name)) = true := by
    rw [runs_iff]
    simp only [not_exists, not_and, Bool.not_eq_true, Bool.not_eq_true']
  rw [attributed?, List.find?_eq_some_iff_append, hserves, Bool.true_and]
  simp only [hbefore]

/-- Every tool suits the languages if it takes its settings for the one that it is attributed to. -/
theorem suits_iff : r.Suits o [] languages ↔ ∀ l, ∀ a ∈ r.serving l,
    r.attributed? o languages a.name = some l →
      a.checkSettings ((o.block l).settingsOf a.name) = .ok () := by
  constructor
  · intro h l a ha hattributed
    obtain ⟨hselects, before, after, hsplit, hruns⟩ := (attributed?_eq_some ha).mp hattributed
    exact h before l after hsplit a ha hselects hruns
  · intro h before l after hsplit a ha hselects hruns
    exact h l a ha ((attributed?_eq_some ha).mpr ⟨hselects, before, after, hsplit, hruns⟩)

theorem checkSelection_eq_ok : r.checkSelection o = .ok () ↔ r.Knows o := by
  rw [← checkSelection_settles.found (), mapError_eq_ok]

theorem exists_schedule_iff : (∃ planned, r.schedule o languages = .ok planned) ↔
    r.Suits o [] languages :=
  scheduleLanguages_ok_iff fun name => by simp [isScheduled, Runs]

/-- A run that does not start has a problem of the input, found by the selection or by the schedule. -/
theorem refused_of_not_starts (h : ¬ r.Starts o languages) :
    ∃ p, p.isInput = true ∧ (r.checkSelection o >>= fun _ => r.schedule o languages) = .error p := by
  by_cases hselection : r.checkSelection o = .ok ()
  · have hnone : ∀ planned, ¬ (r.Suits o [] languages ∧ r.schedule o languages = .ok planned) :=
      fun planned hplanned => h ⟨hselection, planned, hplanned.2⟩
    obtain ⟨f, hf, hinput⟩ := schedule_settles.refused hnone
    obtain ⟨p, hp, hproblem⟩ := mapError_eq_error.mp hf
    obtain rfl := Failure.problem.inj hproblem
    exact ⟨p, hinput, bind_eq_error.mpr (.inr ⟨(), hselection, hp⟩)⟩
  · have hunknown : ∀ u : Unit, ¬ r.Knows o := fun _ hknows => hselection (checkSelection_eq_ok.mpr hknows)
    obtain ⟨f, hf, hinput⟩ := checkSelection_settles.refused hunknown
    obtain ⟨p, hp, hproblem⟩ := mapError_eq_error.mp hf
    obtain rfl := Failure.problem.inj hproblem
    exact ⟨p, hinput, bind_eq_error.mpr (.inl hp)⟩

/-- **A run starts** if and only if the options name tools that there are, each under a language that it
serves, and every tool takes its settings in the block of the language that it is attributed to. A run that
does not start has a problem of the input. -/
theorem starts_iff (r : Registry) (o : AnalysisOptions) (languages : List Language) :
    (r.Starts o languages ↔ r.Knows o ∧ ∀ l, ∀ a ∈ r.serving l,
      r.attributed? o languages a.name = some l →
        a.checkSettings ((o.block l).settingsOf a.name) = .ok ()) ∧
    (¬ r.Starts o languages → ∃ p, p.isInput = true ∧
      (r.checkSelection o >>= fun _ => r.schedule o languages) = .error p) := by
  refine ⟨?_, refused_of_not_starts⟩
  have hstarts : r.Starts o languages ↔ r.Knows o ∧ r.Suits o [] languages :=
    and_congr checkSelection_eq_ok exists_schedule_iff
  rw [hstarts, suits_iff]

/-- **Settings that a tool refuses can go unnoticed**: the Clang analyzer is attributed to C, so what the
block of C++ says to it is not looked at. The same settings end the run when C++ is the only language. -/
theorem starts_with_refused_settings :
    let o : AnalysisOptions :=
      { AnalysisOptions.standard 4 with
        cpp := { parallelism := 4, toolOptions := [("clang-static-analyzer", [("bogus", .int 1)])] } }
    standard.Starts o [.c, .cpp] ∧ Analyzer.clang ∈ standard.serving .cpp ∧
      (o.block .cpp).selects Analyzer.clang.name = true ∧
      Analyzer.clang.checkSettings ((o.block .cpp).settingsOf Analyzer.clang.name) =
        .error ⟨.unknownOption, "clang-static-analyzer: unknown option 'bogus'"⟩ ∧
      ¬ standard.Starts o [.cpp] := by
  intro o
  have hclang : Analyzer.clang ∈ standard.serving .cpp :=
    List.mem_filter.mpr ⟨by simp [standard, Analyzer.standard], by decide⟩
  have hselects : (o.block .cpp).selects Analyzer.clang.name = true := by decide +kernel
  have hrefused : Analyzer.clang.checkSettings ((o.block .cpp).settingsOf Analyzer.clang.name) =
      .error ⟨.unknownOption, "clang-static-analyzer: unknown option 'bogus'"⟩ := by rfl
  have hschedule : (standard.schedule o [.c, .cpp]).isOk = true := by decide +kernel
  refine ⟨⟨checkSelection_eq_ok.mpr fun l => ?_, ?_⟩, hclang, hselects, hrefused, ?_⟩
  · have hserves : standard.serves .cpp "clang-static-analyzer" = true := by decide +kernel
    cases l with
    | cpp => exact ⟨nofun, fun entry hentry => List.mem_singleton.mp hentry ▸ hserves⟩
    | _ => exact ⟨nofun, nofun⟩
  · cases h : standard.schedule o [.c, .cpp] with
    | ok planned => exact ⟨planned, rfl⟩
    | error p => simp [h, Except.isOk, Except.toBool] at hschedule
  · rintro ⟨-, hstarts⟩
    -- alone, the language is the first one that selects the tool
    have haccepts := exists_schedule_iff.mp hstarts [] .cpp [] rfl Analyzer.clang hclang hselects
      (by simp [Runs])
    rw [hrefused] at haccepts
    simp at haccepts

end Registry

end Assay

import Assay.Proofs.Outcome
import Assay.Schedule

/-!
# Tools that can be scheduled

When options can be met by a registry: they name tools that there are, each under a language that it
serves (`checkSelection_settles`), and every tool that is scheduled takes its settings
(`schedule_settles`).
-/

namespace Assay

namespace Registry

variable {r : Registry} {o : AnalysisOptions} {languages : List Language}

/-- The options name no tool that is not in the registry, and no settings for a tool under a language
that it does not serve. -/
def Knows (r : Registry) (o : AnalysisOptions) : Prop :=
  ∀ l, (∀ name ∈ (o.block l).toolSelection.getD [], r.contains name = true) ∧
    ∀ entry ∈ (o.block l).toolOptions, r.serves l entry.1 = true

theorem blockProblem_eq_none {l : Language} {block : LanguageOptions} :
    r.blockProblem l block = none ↔ (∀ name ∈ block.toolSelection.getD [], r.contains name = true) ∧
      ∀ entry ∈ block.toolOptions, r.serves l entry.1 = true := by
  simp [blockProblem]

theorem isInput_of_blockProblem {l : Language} {block : LanguageOptions} {p : Problem}
    (h : r.blockProblem l block = some p) : p.isInput = true := by
  unfold blockProblem at h
  rcases Option.or_eq_some_iff.mp h with h | ⟨-, h⟩
  · obtain ⟨name, -, rfl⟩ := Option.map_eq_some_iff.mp h
    rfl
  · obtain ⟨name, -, rfl⟩ := Option.map_eq_some_iff.mp h
    rfl

/-- **A selection passes** if the registry knows every tool that it names, and is refused otherwise. -/
theorem checkSelection_settles :
    Settles ((r.checkSelection o).mapError Failure.problem) fun _ => r.Knows o := by
  have hall (l : Language) : l ∈ Language.all := by cases l <;> decide
  unfold checkSelection
  cases hproblem : Language.all.findSome? fun l => r.blockProblem l (o.block l) with
  | none =>
      refine .intro (fun _ _ => rfl) fun h => absurd ?_ (h ())
      intro l
      exact blockProblem_eq_none.mp (List.findSome?_eq_none_iff.mp hproblem l (hall l))
  | some p =>
      obtain ⟨l, -, hp⟩ := List.exists_of_findSome?_eq_some hproblem
      refine .intro (fun _ h => ?_) fun _ => ⟨p, rfl, isInput_of_blockProblem hp⟩
      rw [blockProblem_eq_none.mpr (h l)] at hp
      simp at hp

/-! ## The tools of a language -/

theorem scheduleTool_eq_ok {l : Language} {block : LanguageOptions} {planned planned' : List Scheduled}
    {a : Analyzer} : scheduleTool l block planned a = .ok planned' ↔
      a.checkSettings (block.settingsOf a.name) = .ok () ∧ planned ++ [⟨planned.length, l, a⟩] = planned' := by
  unfold scheduleTool
  rw [map_eq_ok]
  constructor
  · rintro ⟨⟨⟩, hsettings, hplanned⟩
    exact ⟨hsettings, hplanned⟩
  · rintro ⟨hsettings, hplanned⟩
    exact ⟨(), hsettings, hplanned⟩

theorem isInput_of_scheduleTool {l : Language} {block : LanguageOptions} {planned : List Scheduled}
    {a : Analyzer} {p : Problem} (h : scheduleTool l block planned a = .error p) : p.isInput = true := by
  have hsettings := map_eq_error.mp h
  unfold Analyzer.checkSettings at hsettings
  split at hsettings
  · rw [← Except.error.inj hsettings]
    rfl
  · simp at hsettings

/-- Tools are scheduled one after another if all of them take their settings. -/
theorem scheduleTools_ok_iff {l : Language} {block : LanguageOptions} {tools : List Analyzer}
    {planned : List Scheduled} : (∃ planned', tools.foldlM (scheduleTool l block) planned = .ok planned') ↔
      ∀ a ∈ tools, a.checkSettings (block.settingsOf a.name) = .ok () := by
  induction tools generalizing planned with
  | nil => simp [pure, Except.pure]
  | cons a tools ih =>
      rw [List.foldlM_cons, List.forall_mem_cons]
      constructor
      · rintro ⟨planned', h⟩
        obtain ⟨next, hnext, hrest⟩ := bind_eq_ok.mp h
        exact ⟨(scheduleTool_eq_ok.mp hnext).1, ih.mp ⟨planned', hrest⟩⟩
      · rintro ⟨ha, hrest⟩
        obtain ⟨planned', hplanned'⟩ := ih.mpr hrest
        exact ⟨planned', bind_eq_ok.mpr ⟨_, scheduleTool_eq_ok.mpr ⟨ha, rfl⟩, hplanned'⟩⟩

theorem isScheduled_scheduleTools {l : Language} {block : LanguageOptions} {tools : List Analyzer}
    {planned planned' : List Scheduled} {name : String}
    (h : tools.foldlM (scheduleTool l block) planned = .ok planned') :
    isScheduled planned' name = true ↔ isScheduled planned name = true ∨ ∃ a ∈ tools, a.name = name := by
  induction tools generalizing planned with
  | nil =>
      rw [List.foldlM_nil, pure_eq_ok] at h
      simp [h]
  | cons a tools ih =>
      rw [List.foldlM_cons] at h
      obtain ⟨next, hnext, hrest⟩ := bind_eq_ok.mp h
      obtain ⟨-, rfl⟩ := scheduleTool_eq_ok.mp hnext
      rw [ih hrest]
      simp [isScheduled, or_assoc]

/-! ## The tools of all languages -/

/-- A tool of the name runs for one of the languages. -/
def Runs (r : Registry) (o : AnalysisOptions) (languages : List Language) (name : String) : Prop :=
  ∃ l ∈ languages, ∃ a ∈ r.serving l, a.name = name ∧ (o.block l).selects name = true

/-- Every tool takes the settings under the first of the languages that it runs for, unless it runs for
one before them. -/
def Suits (r : Registry) (o : AnalysisOptions) (earlier languages : List Language) : Prop :=
  ∀ before l after, languages = before ++ l :: after → ∀ a ∈ r.serving l,
    (o.block l).selects a.name = true → ¬ r.Runs o (earlier ++ before) a.name →
      a.checkSettings ((o.block l).settingsOf a.name) = .ok ()

theorem suits_cons {earlier : List Language} {l : Language} : r.Suits o earlier (l :: languages) ↔
    (∀ a ∈ r.serving l, (o.block l).selects a.name = true → ¬ r.Runs o earlier a.name →
      a.checkSettings ((o.block l).settingsOf a.name) = .ok ()) ∧ r.Suits o (earlier ++ [l]) languages := by
  constructor
  · intro h
    refine ⟨by simpa using h [] l languages rfl, ?_⟩
    intro before l' after hsplit
    simpa using h (l :: before) l' after (by rw [hsplit]; rfl)
  · rintro ⟨hfirst, hrest⟩ before l' after hsplit
    cases before with
    | nil =>
        obtain ⟨rfl, rfl⟩ := List.cons.inj hsplit
        simpa using hfirst
    | cons k before =>
        obtain ⟨rfl, hlater⟩ := List.cons.inj hsplit
        simpa using hrest before l' after hlater

theorem isScheduled_scheduleLanguage {earlier : List Language} {l : Language}
    {planned planned' : List Scheduled}
    (hplanned : ∀ name, isScheduled planned name = true ↔ r.Runs o earlier name)
    (h : r.scheduleLanguage o planned l = .ok planned') (name : String) :
    isScheduled planned' name = true ↔ r.Runs o (earlier ++ [l]) name := by
  rw [isScheduled_scheduleTools h, hplanned]
  constructor
  · rintro (⟨l', hl', a, ha, hruns⟩ | ⟨a, ha, rfl⟩)
    · exact ⟨l', List.mem_append_left _ hl', a, ha, hruns⟩
    · obtain ⟨hserving, hselected⟩ := List.mem_filter.mp ha
      rw [Bool.and_eq_true] at hselected
      exact ⟨l, by simp, a, hserving, rfl, hselected.2⟩
  · rintro ⟨l', hl', a, ha, rfl, hselects⟩
    -- a tool that runs for an earlier language is scheduled already
    by_cases hbefore : r.Runs o earlier a.name
    · exact .inl hbefore
    · rcases List.mem_append.mp hl' with hl' | hl'
      · exact absurd ⟨l', hl', a, ha, rfl, hselects⟩ hbefore
      · obtain rfl := List.mem_singleton.mp hl'
        refine .inr ⟨a, List.mem_filter.mpr ⟨ha, ?_⟩, rfl⟩
        have hnot : isScheduled planned a.name = false :=
          Bool.eq_false_iff.mpr fun h => hbefore ((hplanned a.name).mp h)
        simp [hnot, hselects]

/-- The languages are gone through one by one; what is scheduled before them is what runs for the
languages before. -/
theorem scheduleLanguages_ok_iff {earlier : List Language} {planned : List Scheduled}
    (hplanned : ∀ name, isScheduled planned name = true ↔ r.Runs o earlier name) :
    (∃ planned', languages.foldlM (r.scheduleLanguage o) planned = .ok planned') ↔
      r.Suits o earlier languages := by
  induction languages generalizing earlier planned with
  | nil =>
      refine ⟨fun _ before l after h => ?_, fun _ => ⟨planned, rfl⟩⟩
      simp at h
  | cons l languages ih =>
      -- what is scheduled for the language are the tools that do not run for an earlier one
      have hlanguage : (∃ next, r.scheduleLanguage o planned l = .ok next) ↔
          ∀ a ∈ r.serving l, (o.block l).selects a.name = true → ¬ r.Runs o earlier a.name →
            a.checkSettings ((o.block l).settingsOf a.name) = .ok () := by
        unfold scheduleLanguage
        dsimp only
        rw [scheduleTools_ok_iff]
        have hfilter (a : Analyzer) : (!isScheduled planned a.name && (o.block l).selects a.name) = true ↔
            ¬ r.Runs o earlier a.name ∧ (o.block l).selects a.name = true := by
          rw [← hplanned]
          simp
        simp only [List.mem_filter, hfilter]
        constructor
        · exact fun h a ha hselects hruns => h a ⟨ha, hruns, hselects⟩
        · exact fun h a ⟨ha, hruns, hselects⟩ => h a ha hselects hruns
      rw [suits_cons, ← hlanguage, List.foldlM_cons]
      constructor
      · rintro ⟨planned', h⟩
        obtain ⟨next, hnext, hrest⟩ := bind_eq_ok.mp h
        exact ⟨⟨next, hnext⟩, (ih (isScheduled_scheduleLanguage hplanned hnext)).mp ⟨planned', hrest⟩⟩
      · rintro ⟨⟨next, hnext⟩, hrest⟩
        obtain ⟨planned', h⟩ := (ih (isScheduled_scheduleLanguage hplanned hnext)).mpr hrest
        exact ⟨planned', bind_eq_ok.mpr ⟨next, hnext, h⟩⟩

/-- **A schedule is made** if every tool that runs takes its settings, and refused otherwise. -/
theorem schedule_settles : Settles ((r.schedule o languages).mapError Failure.problem) fun planned =>
    r.Suits o [] languages ∧ r.schedule o languages = .ok planned := by
  have hok : (∃ planned, r.schedule o languages = .ok planned) ↔ r.Suits o [] languages :=
    scheduleLanguages_ok_iff fun name => by simp [isScheduled, Runs]
  refine .intro (fun planned h => mapError_eq_ok.mpr h.2) fun hnone => ?_
  cases h : r.schedule o languages with
  | ok planned => exact absurd ⟨hok.mp ⟨planned, h⟩, h⟩ (hnone planned)
  | error p =>
      have hlanguage {planned : List Scheduled} {l : Language} {p : Problem}
          (h : r.scheduleLanguage o planned l = .error p) : p.isInput = true :=
        @error_of_foldlM _ _ _ (fun p => p.isInput = true) _ (fun _ _ _ => isInput_of_scheduleTool) _ _ _ h
      exact ⟨p, rfl, @error_of_foldlM _ _ _ (fun p => p.isInput = true) _ (fun _ _ _ => hlanguage) _ _ _ h⟩

end Registry

end Assay

import Assay.Proofs.Attribution
import Assay.Proofs.Survey

/-!
# Which tools a plan holds

A plan goes through the languages in their order and through the tools in the order of their registration,
and takes every tool once: under the first language that the tool serves and whose options select it. A
tool that one language leaves out can still be taken under a later one. The main result, `plan_spec`, says
that this describes the plan completely.
-/

namespace Assay

namespace Registry

variable {r : Registry} {o : AnalysisOptions} {languages : List Language}

/-- The tools that run for a language, in the order of their registration. -/
def due (r : Registry) (o : AnalysisOptions) (languages : List Language) (l : Language) :
    List Analyzer :=
  (r.serving l).filter fun a => r.attributed? o languages a.name == some l

/-- The first item stands before the second one: under an earlier language, or under the same language and
registered earlier. -/
def Precedes (r : Registry) (languages : List Language) (i j : Scheduled) : Prop :=
  languages.idxOf i.language < languages.idxOf j.language ∨
    i.language = j.language ∧ r.names.idxOf i.analyzer.name < r.names.idxOf j.analyzer.name

/-- What the plan for some languages is. -/
structure IsPlan (r : Registry) (o : AnalysisOptions) (languages : List Language)
    (planned : List Scheduled) : Prop where
  /-- No tool is planned twice. -/
  distinct : (planned.map (·.analyzer.name)).Nodup
  /-- The places are numbered in order. -/
  placed : IsPlaced planned
  /-- Only tools of the registry are planned. -/
  registered : ∀ item ∈ planned, item.analyzer ∈ r.tools
  /-- A tool is planned if it serves one of the languages and is selected there. -/
  planned_iff : ∀ a ∈ r.tools, (∃ item ∈ planned, item.analyzer = a) ↔
    ∃ l ∈ languages, l ∈ a.languages ∧ (o.block l).selects a.name = true
  /-- It is planned under the first such language. -/
  attributed : ∀ item ∈ planned, languages.find? (fun l =>
    item.analyzer.languages.contains l && (o.block l).selects item.analyzer.name) = some item.language
  /-- Tools stand in the order of their languages, and under one language in that of the registry. -/
  sorted : planned.Pairwise (r.Precedes languages)

/-! ## One language after the other -/

/-- The items of a plan without their places. -/
def entries (planned : List Scheduled) : List (Language × Analyzer) :=
  planned.map fun item => (item.language, item.analyzer)

theorem entries_scheduleTools {l : Language} {block : LanguageOptions} {tools : List Analyzer}
    {planned planned' : List Scheduled} (h : tools.foldlM (scheduleTool l block) planned = .ok planned') :
    entries planned' = entries planned ++ tools.map (Prod.mk l) := by
  induction tools generalizing planned with
  | nil =>
      rw [List.foldlM_nil, pure_eq_ok] at h
      simp [h]
  | cons a tools ih =>
      rw [List.foldlM_cons] at h
      obtain ⟨next, hnext, hrest⟩ := bind_eq_ok.mp h
      obtain ⟨-, rfl⟩ := scheduleTool_eq_ok.mp hnext
      rw [ih hrest]
      simp [entries]

/-- A tool that serves the language is taken now if and only if the language is the one that it is
attributed to. -/
theorem attributed?_append {earlier later : List Language} {l : Language} {a : Analyzer}
    (hnew : l ∉ earlier) (ha : a ∈ r.serving l) :
    r.attributed? o (earlier ++ l :: later) a.name = some l ↔
      ¬ r.Runs o earlier a.name ∧ (o.block l).selects a.name = true := by
  rw [attributed?_eq_some ha, and_comm]
  refine and_congr_left fun _ => ?_
  constructor
  · rintro ⟨before, after, hsplit, hruns⟩ ⟨k, hk, hearlier⟩
    apply hruns
    -- the language stands at one place only, and not among the earlier ones
    rcases List.append_eq_append_iff.mp hsplit with ⟨between, rfl, -⟩ | ⟨between, rfl, hlater⟩
    · exact ⟨k, List.mem_append_left _ hk, hearlier⟩
    · cases between with
      | nil => exact ⟨k, by simpa using hk, hearlier⟩
      | cons k' between =>
          obtain ⟨rfl, -⟩ := List.cons.inj hlater
          exact absurd (by simp) hnew
  · intro hruns
    exact ⟨earlier, later, rfl, hruns⟩

/-- **One language** adds the tools that are due under it. -/
theorem entries_scheduleLanguage {earlier later : List Language} {l : Language}
    {planned planned' : List Scheduled} (hnew : l ∉ earlier)
    (hplanned : ∀ name, isScheduled planned name = true ↔ r.Runs o earlier name)
    (h : r.scheduleLanguage o planned l = .ok planned') :
    entries planned' = entries planned ++ (r.due o (earlier ++ l :: later) l).map (Prod.mk l) := by
  rw [entries_scheduleTools h]
  congr 2
  refine List.filter_congr fun a ha => ?_
  have hattributed := @attributed?_append r o earlier later l a hnew ha
  rw [← hplanned, Bool.not_eq_true] at hattributed
  rw [Bool.eq_iff_iff, Bool.and_eq_true, Bool.not_eq_true', beq_iff_eq, hattributed]

theorem entries_scheduleLanguages {earlier later : List Language} {planned planned' : List Scheduled}
    (hnodup : (earlier ++ later).Nodup)
    (hplanned : ∀ name, isScheduled planned name = true ↔ r.Runs o earlier name)
    (h : later.foldlM (r.scheduleLanguage o) planned = .ok planned') :
    entries planned' = entries planned ++
      later.flatMap fun l => (r.due o (earlier ++ later) l).map (Prod.mk l) := by
  induction later generalizing earlier planned with
  | nil =>
      rw [List.foldlM_nil, pure_eq_ok] at h
      simp [h]
  | cons l later ih =>
      rw [List.foldlM_cons] at h
      obtain ⟨next, hnext, hrest⟩ := bind_eq_ok.mp h
      -- the language moves from those to come to those gone through
      have hnew : l ∉ earlier := fun hl => (List.nodup_append.mp hnodup).2.2 l hl l (by simp) rfl
      have hsplit : earlier ++ [l] ++ later = earlier ++ l :: later := by simp
      have hlater := ih (hsplit ▸ hnodup) (isScheduled_scheduleLanguage hplanned hnext) hrest
      rw [hlater, entries_scheduleLanguage hnew hplanned hnext, hsplit, List.flatMap_cons,
        List.append_assoc]

/-- **The plan** is made of the tools that are due under the languages, one language after the other. -/
theorem entries_schedule {planned : List Scheduled} (hlanguages : languages.Nodup)
    (h : r.schedule o languages = .ok planned) :
    entries planned = languages.flatMap fun l => (r.due o languages l).map (Prod.mk l) :=
  @entries_scheduleLanguages r o [] languages [] planned hlanguages
    (fun name => by simp [isScheduled, Runs]) h

/-! ## What is due -/

theorem mem_due {l : Language} {a : Analyzer} : a ∈ r.due o languages l ↔
    a ∈ r.tools ∧ l ∈ a.languages ∧ r.attributed? o languages a.name = some l := by
  rw [due, serving, List.mem_filter, List.mem_filter, and_assoc, List.contains_iff_mem, beq_iff_eq]

/-- Where names are distinct, a tool is attributed by the languages that it serves itself. -/
theorem attributed?_eq_find? (hnames : r.names.Nodup) {a : Analyzer} (ha : a ∈ r.tools) :
    r.attributed? o languages a.name =
      languages.find? fun l => a.languages.contains l && (o.block l).selects a.name := by
  unfold attributed?
  congr 1
  funext l
  congr 1
  rw [Bool.eq_iff_iff, List.any_eq_true]
  constructor
  · rintro ⟨b, hb, hname⟩
    obtain ⟨hb, hserves⟩ := List.mem_filter.mp hb
    obtain rfl := List.inj_on_of_nodup_map hnames hb ha (beq_iff_eq.mp hname)
    exact hserves
  · intro hserves
    exact ⟨a, List.mem_filter.mpr ⟨ha, hserves⟩, beq_iff_eq.mpr rfl⟩

/-- In a list without repetition every element stands before those that follow it. -/
theorem pairwise_idxOf_lt {α : Type} [BEq α] [LawfulBEq α] {xs : List α} (h : xs.Nodup) :
    xs.Pairwise fun x y => xs.idxOf x < xs.idxOf y := by
  rw [List.pairwise_iff_getElem]
  intro i j hi hj hij
  rwa [h.idxOf_getElem i hi, h.idxOf_getElem j hj]

theorem due_sorted (hnames : r.names.Nodup) (l : Language) : (r.due o languages l).Pairwise
    fun a b => r.names.idxOf a.name < r.names.idxOf b.name :=
  ((List.pairwise_map.mp (pairwise_idxOf_lt hnames)).filter _).filter _

section Plan

variable {planned : List Scheduled} (hnames : r.names.Nodup) (hlanguages : languages.Nodup)
  (h : r.schedule o languages = .ok planned)
include hlanguages h

/-- Some item plans the tool under the language if the tool is due there. -/
theorem mem_schedule {l : Language} {a : Analyzer} :
    (∃ item ∈ planned, item.language = l ∧ item.analyzer = a) ↔
      l ∈ languages ∧ a ∈ r.due o languages l := by
  have hentries : (l, a) ∈ entries planned ↔ l ∈ languages ∧ a ∈ r.due o languages l := by
    rw [entries_schedule hlanguages h]
    simp [List.mem_flatMap, eq_comm]
  rw [← hentries, entries, List.mem_map]
  simp only [Prod.mk.injEq]

theorem due_of_mem_schedule {item : Scheduled} (hitem : item ∈ planned) :
    item.language ∈ languages ∧ item.analyzer ∈ r.due o languages item.language :=
  (mem_schedule hlanguages h).mp ⟨item, hitem, rfl, rfl⟩

include hnames

theorem schedule_sorted : planned.Pairwise (r.Precedes languages) := by
  have hentries : (entries planned).Pairwise fun x y =>
      languages.idxOf x.1 < languages.idxOf y.1 ∨
        x.1 = y.1 ∧ r.names.idxOf x.2.name < r.names.idxOf y.2.name := by
    rw [entries_schedule hlanguages h, List.pairwise_flatMap]
    constructor
    · intro l _
      rw [List.pairwise_map]
      exact (due_sorted hnames l).imp fun hlt => .inr ⟨rfl, hlt⟩
    · refine (pairwise_idxOf_lt hlanguages).imp fun hlt x hx y hy => .inl ?_
      obtain ⟨_, -, rfl⟩ := List.mem_map.mp hx
      obtain ⟨_, -, rfl⟩ := List.mem_map.mp hy
      exact hlt
  rw [entries, List.pairwise_map] at hentries
  exact hentries

/-- A plan that is in order holds no tool twice: a tool is attributed to one language only. -/
theorem schedule_distinct : (planned.map (·.analyzer.name)).Nodup := by
  rw [List.Nodup, List.pairwise_map]
  refine (schedule_sorted hnames hlanguages h).imp_of_mem ?_
  intro i j hi hj hprecedes hname
  obtain ⟨-, hi⟩ := due_of_mem_schedule hlanguages h hi
  obtain ⟨-, hj⟩ := due_of_mem_schedule hlanguages h hj
  have hlanguage : i.language = j.language := by
    have hattributed := (mem_due.mp hi).2.2
    rw [hname, (mem_due.mp hj).2.2] at hattributed
    exact (Option.some.inj hattributed).symm
  rcases hprecedes with hlt | ⟨-, hlt⟩
  · rw [hlanguage] at hlt
    exact absurd hlt (Nat.lt_irrefl _)
  · rw [hname] at hlt
    exact absurd hlt (Nat.lt_irrefl _)

theorem schedule_attributed {item : Scheduled} (hitem : item ∈ planned) : languages.find? (fun l =>
    item.analyzer.languages.contains l && (o.block l).selects item.analyzer.name) =
      some item.language := by
  obtain ⟨ha, -, hattributed⟩ := mem_due.mp (due_of_mem_schedule hlanguages h hitem).2
  rwa [attributed?_eq_find? hnames ha] at hattributed

theorem schedule_planned_iff {a : Analyzer} (ha : a ∈ r.tools) :
    (∃ item ∈ planned, item.analyzer = a) ↔
      ∃ l ∈ languages, l ∈ a.languages ∧ (o.block l).selects a.name = true := by
  have hfind : r.attributed? o languages a.name = _ := attributed?_eq_find? hnames ha
  constructor
  · rintro ⟨item, hitem, rfl⟩
    have hfound := schedule_attributed hnames hlanguages h hitem
    have hboth := List.find?_some hfound
    rw [Bool.and_eq_true, List.contains_iff_mem] at hboth
    exact ⟨item.language, List.mem_of_find?_eq_some hfound, hboth⟩
  · rintro ⟨l, hl, hserves, hselects⟩
    -- the tool may be planned under another language than this one, the first that claims it
    obtain ⟨k, hk⟩ : ∃ k, r.attributed? o languages a.name = some k := by
      rw [hfind, ← Option.isSome_iff_exists, List.find?_isSome]
      exact ⟨l, hl, by simp [hserves, hselects]⟩
    have hboth := List.find?_some (hfind ▸ hk)
    rw [Bool.and_eq_true, List.contains_iff_mem] at hboth
    obtain ⟨item, hitem, -, ha'⟩ := (mem_schedule hlanguages h).mpr
      ⟨List.mem_of_find?_eq_some (hfind ▸ hk), mem_due.mpr ⟨ha, hboth.1, hk⟩⟩
    exact ⟨item, hitem, ha'⟩

end Plan

/-! ## The plan and no other -/

/-- An item that stands before another one does not stand after it. -/
theorem Precedes.asymm {i j : Scheduled} (hij : r.Precedes languages i j)
    (hji : r.Precedes languages j i) : False := by
  rcases hij with hij | ⟨heq, hij⟩
  · rcases hji with hji | ⟨heq, -⟩
    · exact Nat.lt_asymm hij hji
    · rw [heq] at hij
      exact Nat.lt_irrefl _ hij
  · rcases hji with hji | ⟨-, hji⟩
    · rw [heq] at hji
      exact Nat.lt_irrefl _ hji
    · exact Nat.lt_asymm hij hji

theorem order_getElem {planned : List Scheduled} (h : IsPlaced planned) {i : Nat}
    (hi : i < planned.length) : planned[i].order = i := by
  have hget := congrArg (·[i]?) h
  simpa [hi] using hget

/-- Items at their places are told apart by what they plan. -/
theorem eq_of_entries_eq {planned planned' : List Scheduled} (hplaced : IsPlaced planned)
    (hplaced' : IsPlaced planned') (hentries : entries planned = entries planned') :
    planned = planned' := by
  have hlength : planned.length = planned'.length := by
    simpa [entries] using congrArg List.length hentries
  refine List.ext_getElem hlength fun i hi hi' => ?_
  have hget := congrArg (·[i]?) hentries
  obtain ⟨hlanguage, hanalyzer⟩ : planned[i].language = planned'[i].language ∧
      planned[i].analyzer = planned'[i].analyzer := by
    simpa [entries, hi, hi'] using hget
  -- the order is the one field that the entry does not hold, and it is the place
  have hplace : planned[i].order = planned'[i].order := by
    rw [order_getElem hplaced hi, order_getElem hplaced' hi']
  rcases hitem : planned[i] with ⟨k, l, a⟩
  rcases hitem' : planned'[i] with ⟨k', l', a'⟩
  simp_all

namespace IsPlan

variable {planned planned' : List Scheduled}

/-- What one plan holds every other one holds. -/
theorem entries_subset (h : r.IsPlan o languages planned) (h' : r.IsPlan o languages planned') :
    entries planned ⊆ entries planned' := by
  intro entry hentry
  obtain ⟨item, hitem, rfl⟩ := List.mem_map.mp hentry
  have ha := h.registered item hitem
  obtain ⟨item', hitem', hsame⟩ :=
    (h'.planned_iff _ ha).mpr ((h.planned_iff _ ha).mp ⟨item, hitem, rfl⟩)
  have hlanguage : some item'.language = some item.language := by
    rw [← h.attributed item hitem, ← h'.attributed item' hitem', hsame]
  exact List.mem_map.mpr ⟨item', hitem', by rw [hsame, Option.some.inj hlanguage]⟩

theorem nodup_entries (h : r.IsPlan o languages planned) : (entries planned).Nodup := by
  apply List.Nodup.of_map (fun entry => entry.2.name)
  rw [entries, List.map_map]
  exact h.distinct

/-- There is one plan only. -/
theorem unique (h : r.IsPlan o languages planned) (h' : r.IsPlan o languages planned') :
    planned = planned' := by
  apply eq_of_entries_eq h.placed h'.placed
  have hperm : (entries planned).Perm (entries planned') :=
    (List.perm_ext_iff_of_nodup h.nodup_entries h'.nodup_entries).mpr fun _ =>
      ⟨fun hentry => h.entries_subset h' hentry, fun hentry => h'.entries_subset h hentry⟩
  -- the order of two items does not depend on the places that they have been given
  have hsorted {items : List Scheduled} (h : r.IsPlan o languages items) : (entries items).Pairwise
      fun x y => r.Precedes languages ⟨0, x.1, x.2⟩ ⟨0, y.1, y.2⟩ := by
    rw [entries, List.pairwise_map]
    exact h.sorted
  exact hperm.eq_of_pairwise (fun _ _ _ _ hxy hyx => (hxy.asymm hyx).elim) (hsorted h) (hsorted h')

end IsPlan

/-- **What the plan holds.** For distinct tools and distinct languages, a plan that is made holds no tool
twice, numbers its items in order, holds a tool if and only if some of the languages is among its own and
selects it, attributes the tool to the first such language, and is sorted by the places of these languages
and then by registration. No other list is like that. -/
theorem plan_spec {planned : List Scheduled} (hnames : r.names.Nodup) (hlanguages : languages.Nodup)
    (h : r.schedule o languages = .ok planned) :
    r.IsPlan o languages planned ∧
      ∀ planned', r.IsPlan o languages planned' → planned' = planned := by
  have hplan : r.IsPlan o languages planned := {
    distinct := schedule_distinct hnames hlanguages h
    placed := isPlaced_schedule h
    registered := fun _ hitem => (mem_due.mp (due_of_mem_schedule hlanguages h hitem).2).1
    planned_iff := fun _ ha => schedule_planned_iff hnames hlanguages h ha
    attributed := fun _ hitem => schedule_attributed hnames hlanguages h hitem
    sorted := schedule_sorted hnames hlanguages h }
  exact ⟨hplan, fun planned' hplan' => hplan'.unique hplan⟩

/-- The Clang analyzer is left out for C and taken up under C++, and Valgrind does not run twice. -/
theorem plan_spec_clang :
    let o : AnalysisOptions :=
      { AnalysisOptions.standard 4 with c := { parallelism := 4, toolSelection := some ["valgrind"] } }
    ∃ planned, standard.schedule o [.c, .cpp] = .ok planned ∧ standard.IsPlan o [.c, .cpp] planned ∧
      planned.map (fun item => (item.order, item.language, item.analyzer.name)) =
        [(0, .c, "valgrind"), (1, .cpp, "clang-static-analyzer")] := by
  intro o
  have hok : ((standard.schedule o [.c, .cpp]).toOption.map fun planned =>
      planned.map fun item => (item.order, item.language, item.analyzer.name)) =
        some [(0, .c, "valgrind"), (1, .cpp, "clang-static-analyzer")] := by decide
  cases h : standard.schedule o [.c, .cpp] with
  | ok planned =>
      rw [h] at hok
      exact ⟨planned, rfl, (plan_spec (by decide) (by decide) h).1, Option.some.inj hok⟩
  | error p =>
      rw [h] at hok
      simp [Except.toOption] at hok

end Registry

end Assay

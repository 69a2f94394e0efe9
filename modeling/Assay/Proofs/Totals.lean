import Assay.Proofs.Entries
import Assay.Report
import Mathlib.Algebra.BigOperators.Group.List.Basic
import Mathlib.Algebra.Order.Ring.Int

/-!
# What the totals of a run say

A row of counts *tallies* items by a name that each of them has if its names are distinct, none of the
items' names is left out, and each name stands with the number of its items (`Counts.Tallies`). Such counts
add up to the number of items (`Tallies.total_eq`), and their numbers are those of the items
(`Tallies.number_eq`). The totals of a run tally its issues three times: by severity, by category and by the
tool whose report holds them, and the exit code of the run tells whether a grave one is among them. The main
result is `Totals.ofReports_spec`.
-/

namespace Assay

/-! ## Tallies -/

namespace Counts

variable {α : Type} {counts : Counts} {items : List α} {name : α → String}

/-- The number of a name, zero if it is not counted. -/
def number (counts : Counts) (name : String) : Int := (Entries.get? name counts).getD 0

/-- All numbers together. -/
def total (counts : Counts) : Int := (counts.map (·.2)).sum

/-- The counts tally items by name. -/
structure Tallies (counts : Counts) (items : List α) (name : α → String) : Prop where
  distinct : (Entries.keys counts).Nodup
  complete : ∀ a ∈ items, name a ∈ Entries.keys counts
  entry : ∀ e ∈ counts, e.2 = (items.countP fun a => name a == e.1 : Nat)

/-- The numbers of items by distinct names, none of which is left out, add up to the number of items. Each
item adds one at exactly one name. -/
theorem sum_countP {names : List String} (hnodup : names.Nodup) (hcomplete : ∀ a ∈ items, name a ∈ names) :
    (names.map fun s => ((items.countP fun a => name a == s : Nat) : Int)).sum = items.length := by
  induction items with
  | nil => simp
  | cons a items ih =>
      obtain ⟨ha, hrest⟩ := List.forall_mem_cons.mp hcomplete
      have hone : (names.map fun s => ((if (name a == s) = true then 1 else 0 : Nat) : Int)).sum = 1 := by
        rw [List.sum_map_eq_nsmul_single (name a) _ fun s hs _ => by simp [hs.symm],
          List.count_eq_one_of_mem hnodup ha]
        simp
      simp only [List.countP_cons, Int.natCast_add]
      rw [List.sum_map_add, ih hrest, hone, List.length_cons, Int.natCast_succ]

/-- **The numbers of a tally add up** to the number of items. -/
theorem Tallies.total_eq (h : counts.Tallies items name) : counts.total = items.length := by
  have hnumbers : counts.map (·.2) =
      (Entries.keys counts).map fun s => ((items.countP fun a => name a == s : Nat) : Int) := by
    rw [Entries.keys, List.map_map]
    exact List.map_congr_left h.entry
  rw [total, hnumbers, sum_countP h.distinct h.complete]

/-- **The number of a name in a tally** is the number of its items, also if it is not counted. -/
theorem Tallies.number_eq (h : counts.Tallies items name) (s : String) :
    counts.number s = (items.countP fun a => name a == s : Nat) := by
  rw [number]
  cases hnumber : Entries.get? s counts with
  | some n => exact h.entry (s, n) (Entries.mem_of_get? hnumber)
  | none =>
      have hnone : items.countP (fun a => name a == s) = 0 := by
        refine List.countP_eq_zero.mpr fun a ha heq => ?_
        exact Entries.get?_eq_none.mp hnumber (eq_of_beq heq ▸ h.complete a ha)
      rw [hnone]
      rfl

/-- The numbers of a tally of all items are those of two parts taken together. -/
theorem Tallies.number_append {all other : Counts} {more : List α} (hall : all.Tallies (items ++ more) name)
    (h : counts.Tallies items name) (hother : other.Tallies more name) (s : String) :
    all.number s = counts.number s + other.number s := by
  rw [hall.number_eq, h.number_eq, hother.number_eq, List.countP_append, Int.natCast_add]

/-- Distinct names with the right numbers are a tally. -/
theorem Tallies.of_number (hdistinct : (Entries.keys counts).Nodup)
    (hcomplete : ∀ a ∈ items, name a ∈ Entries.keys counts)
    (hnumber : ∀ s, counts.number s = (items.countP fun a => name a == s : Nat)) :
    counts.Tallies items name where
  distinct := hdistinct
  complete := hcomplete
  entry e he := by
    have hget : Entries.get? e.1 counts = some e.2 := (Entries.get?_eq_some hdistinct).mpr he
    rw [← hnumber, number, hget]
    rfl

/-! ## Counting by vocabulary -/

section Members

variable {κ : Type} [Vocabulary κ] [DecidableEq κ] {kind : α → κ} {members : List κ}

/-- The numbers of items for members with different names, none of which is left out, tally the items. -/
theorem tallies_members (hnames : (members.map Vocabulary.name).Nodup)
    (hmembers : ∀ a ∈ items, kind a ∈ members) :
    Tallies (members.map fun k => (Vocabulary.name k, ((items.countP fun a => kind a == k : Nat) : Int)))
      items fun a => Vocabulary.name (kind a) where
  distinct := by
    rw [Entries.keys, List.map_map]
    exact hnames
  complete a ha := by
    rw [Entries.keys, List.map_map]
    exact List.mem_map.mpr ⟨kind a, hmembers a ha, rfl⟩
  entry e he := by
    obtain ⟨k, hk, rfl⟩ := List.mem_map.mp he
    have hname (a : α) (ha : a ∈ items) : (kind a == k) = (Vocabulary.name (kind a) == Vocabulary.name k) := by
      rw [Bool.eq_iff_iff, beq_iff_eq, beq_iff_eq]
      exact ⟨congrArg _, fun heq => List.inj_on_of_nodup_map hnames (hmembers a ha) hk heq⟩
    dsimp only
    rw [List.countP_congr fun a ha => by rw [hname a ha]]

end Members

theorem tallies_severityCounts (issues : List Issue) :
    (severityCounts issues).Tallies issues fun i => Vocabulary.name i.severity :=
  tallies_members (by decide) fun i _ => by cases i.severity <;> decide

theorem number_severityCounts (issues : List Issue) (level : Severity) :
    (severityCounts issues).number (Vocabulary.name level) = countSeverity issues level := by
  have hentry : (Vocabulary.name level, (countSeverity issues level : Int)) ∈ severityCounts issues :=
    List.mem_map.mpr ⟨level, by cases level <;> decide, rfl⟩
  rw [number, (Entries.get?_eq_some (tallies_severityCounts issues).distinct).mpr hentry]
  rfl

/-- Members without items may be left out. -/
theorem tallies_categoryCounts (issues : List Issue) :
    (categoryCounts issues).Tallies issues fun i => Vocabulary.name i.category := by
  have hnames : ((Vocabulary.members (α := Category)).map Vocabulary.name).Nodup := by decide
  refine tallies_members (hnames.sublist (List.filter_sublist.map _)) fun i hi => List.mem_filter.mpr ⟨?_, ?_⟩
  · cases i.category <;> decide
  · rw [bne_iff_ne]
    have hpos : 0 < countCategory issues i.category := List.countP_pos_iff.mpr ⟨i, hi, beq_self_eq_true _⟩
    exact Nat.ne_of_gt hpos

end Counts

/-! ## Counting by report -/

/-- An issue with the tool whose report holds it. -/
structure Reported where
  tool : String
  issue : Issue

/-- The issues of reports, with the tools that reported them. -/
def reported (reports : List ToolReport) : List Reported :=
  reports.flatMap fun r => r.issues.map fun i => ⟨r.tool, i⟩

namespace Counts

variable {name : String} {n : Int} {counts : Counts}

theorem add_eq_alter (name : String) (n : Int) (counts : Counts) :
    add name n counts = Entries.alter name (fun m => m.getD 0 + n) counts := by
  induction counts with
  | nil => simp [add, Entries.alter]
  | cons e counts ih =>
      rw [add, Entries.alter, ih]
      rfl

theorem number_add (s : String) :
    (add name n counts).number s = counts.number s + if name = s then n else 0 := by
  rw [add_eq_alter, number, Entries.get?_alter]
  split
  · next h => rw [h]; rfl
  · exact (Int.add_zero _).symm

theorem mem_keys_add {s : String} :
    s ∈ Entries.keys (add name n counts) ↔ s = name ∨ s ∈ Entries.keys counts := by
  rw [add_eq_alter]
  exact Entries.mem_keys_alter

theorem nodup_keys_add (h : (Entries.keys counts).Nodup) : (Entries.keys (add name n counts)).Nodup := by
  rw [add_eq_alter]
  exact Entries.nodup_keys_alter h

/-- The counts with the number of issues in a report added. -/
def addReport (counts : Counts) (r : ToolReport) : Counts := add r.tool r.issues.length counts

theorem nodup_keys_foldl (reports : List ToolReport) (h : (Entries.keys counts).Nodup) :
    (Entries.keys (reports.foldl addReport counts)).Nodup := by
  induction reports generalizing counts with
  | nil => exact h
  | cons r reports ih => exact ih (nodup_keys_add h)

theorem mem_keys_foldl (reports : List ToolReport) {s : String} :
    s ∈ Entries.keys (reports.foldl addReport counts) ↔
      s ∈ Entries.keys counts ∨ ∃ r ∈ reports, r.tool = s := by
  induction reports generalizing counts with
  | nil => simp
  | cons r reports ih =>
      rw [List.foldl_cons, ih, addReport, mem_keys_add, List.exists_mem_cons_iff, or_assoc, or_left_comm,
        eq_comm]

/-- The number of issues that a report adds to a tool. -/
theorem countP_reported_cons (r : ToolReport) (reports : List ToolReport) (s : String) :
    (reported (r :: reports)).countP (fun i => i.tool == s) =
      (if r.tool = s then r.issues.length else 0) + (reported reports).countP fun i => i.tool == s := by
  rw [reported, List.flatMap_cons, List.countP_append, List.countP_map]
  congr 1
  split
  · next h => exact List.countP_eq_length.mpr fun _ _ => beq_iff_eq.mpr h
  · next h => exact List.countP_eq_zero.mpr fun _ _ heq => h (beq_iff_eq.mp heq)

theorem number_foldl (reports : List ToolReport) (s : String) :
    (reports.foldl addReport counts).number s =
      counts.number s + ((reported reports).countP fun i => i.tool == s : Nat) := by
  induction reports generalizing counts with
  | nil => simp [reported]
  | cons r reports ih =>
      rw [List.foldl_cons, ih, addReport, number_add, countP_reported_cons, Int.natCast_add, Int.add_assoc]
      split <;> rfl

theorem tallies_foldl (reports : List ToolReport) :
    (reports.foldl addReport []).Tallies (reported reports) Reported.tool := by
  refine .of_number (nodup_keys_foldl reports List.nodup_nil) (fun i hi => ?_) fun s => ?_
  · obtain ⟨r, hr, hi⟩ := List.mem_flatMap.mp hi
    obtain ⟨_, -, rfl⟩ := List.mem_map.mp hi
    exact (mem_keys_foldl reports).mpr (.inr ⟨r, hr, rfl⟩)
  · rw [number_foldl]
    exact Int.zero_add _

end Counts

/-! ## The totals of a run -/

theorem map_issue_reported (reports : List ToolReport) :
    (reported reports).map Reported.issue = reports.flatMap (·.issues) := by
  simp only [reported, List.map_flatMap, List.map_map, Function.comp_def, List.map_id']

theorem length_reported (reports : List ToolReport) :
    ((reported reports).length : Int) = (reports.map fun r => (r.issues.length : Int)).sum := by
  induction reports with
  | nil => rfl
  | cons r reports ih =>
      rw [List.map_cons, List.sum_cons, ← ih, reported, List.flatMap_cons, List.length_append,
        List.length_map, Int.natCast_add]
      rfl

theorem reported_append (reports more : List ToolReport) :
    reported (reports ++ more) = reported reports ++ reported more :=
  List.flatMap_append

/-- A tally of the issues of reports is one of the issues with their tools. -/
theorem Counts.Tallies.reported {counts : Counts} {name : Issue → String} {reports : List ToolReport}
    (h : counts.Tallies (reports.flatMap (·.issues)) name) :
    counts.Tallies (reported reports) fun i => name i.issue := by
  rw [← map_issue_reported] at h
  refine ⟨h.distinct, fun i hi => h.complete _ (List.mem_map_of_mem hi), fun e he => ?_⟩
  rw [h.entry e he, List.countP_map]
  rfl

/-! ## Exit codes -/

/-- An issue that a run fails for. -/
def Issue.IsGrave (i : Issue) : Prop := i.severity = .high ∨ i.severity = .critical

namespace RunReport

/-- What was the worst so far is grave, if anything was. -/
def Fails (worst : Option Severity) : Prop := ∃ s, worst = some s ∧ s.atLeast failureThreshold = true

theorem fails_worst {so : Option Severity} {s : Severity} :
    Fails (worst so s) ↔ Fails so ∨ s = .high ∨ s = .critical := by
  have hgrave : s.atLeast failureThreshold = true ↔ s = .high ∨ s = .critical := by cases s <;> decide
  rw [← hgrave]
  cases so with
  | none => simp [worst, Fails]
  | some t =>
      simp only [worst, Fails, Option.some.injEq, exists_eq_left']
      cases t <;> cases s <;> decide

theorem fails_foldl {severities : List Severity} {so : Option Severity} :
    Fails (severities.foldl worst so) ↔ Fails so ∨ ∃ s ∈ severities, s = .high ∨ s = .critical := by
  induction severities generalizing so with
  | nil => simp
  | cons s severities ih => rw [List.foldl_cons, ih, fails_worst, List.exists_mem_cons_iff, or_assoc]

/-- **The exit code of a report** is one if some issue in it is grave, and zero otherwise. -/
theorem exitCode_eq (report : RunReport) :
    (report.exitCode = 1 ↔ ∃ i ∈ report.issues, i.IsGrave) ∧
      (report.exitCode = 0 ↔ ¬ ∃ i ∈ report.issues, i.IsGrave) := by
  have hfails : Fails report.highestSeverity ↔ ∃ i ∈ report.issues, i.IsGrave := by
    rw [highestSeverity, fails_foldl]
    simp [Fails, Issue.IsGrave]
  rw [← hfails, exitCode]
  cases hworst : report.highestSeverity with
  | none => simp [Fails]
  | some s =>
      simp only [Fails, Option.some.injEq, exists_eq_left']
      split <;> simp [*]

end RunReport

namespace Totals

/-- The totals are those of reports: each issue is counted once by severity, once by category and once by
tool. -/
structure IsTallyOf (t : Totals) (reports : List ToolReport) : Prop where
  totalIssues : t.totalIssues = (reports.map fun r => (r.issues.length : Int)).sum
  bySeverity : t.bySeverity.Tallies (reported reports) fun i => Vocabulary.name i.issue.severity
  byCategory : t.byCategory.Tallies (reported reports) fun i => Vocabulary.name i.issue.category
  byTool : t.byTool.Tallies (reported reports) Reported.tool
  total_bySeverity : t.bySeverity.total = t.totalIssues
  total_byCategory : t.byCategory.total = t.totalIssues
  total_byTool : t.byTool.total = t.totalIssues
  /-- Every severity is listed. -/
  severities : ∀ s, s ∈ Entries.keys t.bySeverity ↔ ∃ level : Severity, Vocabulary.name level = s
  /-- Only categories with issues are listed. -/
  categories : ∀ e ∈ t.byCategory, 0 < e.2
  /-- Every tool with a report is listed. -/
  tools : ∀ s, s ∈ Entries.keys t.byTool ↔ ∃ r ∈ reports, r.tool = s
  filesAnalyzed : t.filesAnalyzed = (reports.map fun r => (r.filesAnalyzed : Int)).sum
  droppedRecords : t.droppedRecords = (reports.map fun r => (r.droppedRecords : Int)).sum
  /-- The tools of the reports that failed, and of those that were skipped, in the order of the reports. -/
  failedTools : t.failedTools = (reports.filter fun r => r.status == .error).map (·.tool)
  skippedTools : t.skippedTools = (reports.filter fun r => r.status == .skipped).map (·.tool)

/-- The totals are two others taken together. -/
structure IsSum (t one other : Totals) : Prop where
  totalIssues : t.totalIssues = one.totalIssues + other.totalIssues
  bySeverity : ∀ s, t.bySeverity.number s = one.bySeverity.number s + other.bySeverity.number s
  byCategory : ∀ s, t.byCategory.number s = one.byCategory.number s + other.byCategory.number s
  byTool : ∀ s, t.byTool.number s = one.byTool.number s + other.byTool.number s
  filesAnalyzed : t.filesAnalyzed = one.filesAnalyzed + other.filesAnalyzed
  droppedRecords : t.droppedRecords = one.droppedRecords + other.droppedRecords
  failedTools : t.failedTools = one.failedTools ++ other.failedTools
  skippedTools : t.skippedTools = one.skippedTools ++ other.skippedTools

theorem totalOf_eq_sum (count : ToolReport → Nat) (reports : List ToolReport) :
    (totalOf count reports : Int) = (reports.map fun r => (count r : Int)).sum := by
  -- generalised to what has been added up before
  have hfrom (n : Nat) : ((reports.foldl (fun n r => n + count r) n : Nat) : Int) =
      n + (reports.map fun r => (count r : Int)).sum := by
    induction reports generalizing n with
    | nil => simp
    | cons r reports ih =>
        rw [List.foldl_cons, ih, List.map_cons, List.sum_cons, Int.natCast_add, Int.add_assoc]
  rw [totalOf, hfrom]
  exact Int.zero_add _

theorem totalOf_append (count : ToolReport → Nat) (reports more : List ToolReport) :
    (totalOf count (reports ++ more) : Int) = totalOf count reports + totalOf count more := by
  rw [totalOf_eq_sum, totalOf_eq_sum, totalOf_eq_sum, List.map_append, List.sum_append]

theorem toolsWith_append (status : ToolStatus) (reports more : List ToolReport) :
    toolsWith status (reports ++ more) = toolsWith status reports ++ toolsWith status more := by
  rw [toolsWith, List.filter_append, List.map_append]
  rfl

theorem isTallyOf_ofReports (reports : List ToolReport) : (ofReports reports).IsTallyOf reports := by
  have hseverity := (Counts.tallies_severityCounts (reports.flatMap (·.issues))).reported
  have hcategory := (Counts.tallies_categoryCounts (reports.flatMap (·.issues))).reported
  have htool := Counts.tallies_foldl reports
  have htotal : (ofReports reports).totalIssues = (reported reports).length := by
    rw [← List.length_map Reported.issue, map_issue_reported]
    rfl
  exact {
    totalIssues := htotal.trans (length_reported reports)
    bySeverity := hseverity
    byCategory := hcategory
    byTool := htool
    total_bySeverity := hseverity.total_eq.trans htotal.symm
    total_byCategory := hcategory.total_eq.trans htotal.symm
    total_byTool := htool.total_eq.trans htotal.symm
    severities := fun s => by
      have hkeys : Entries.keys (severityCounts (reports.flatMap (·.issues))) =
          (Vocabulary.members (α := Severity)).map Vocabulary.name := List.map_map
      have hall (level : Severity) : level ∈ Vocabulary.members (α := Severity) := by cases level <;> decide
      show s ∈ Entries.keys (severityCounts _) ↔ _
      rw [hkeys, List.mem_map]
      exact exists_congr fun level => and_iff_right (hall level)
    categories := fun e he => by
      obtain ⟨c, hc, rfl⟩ := List.mem_map.mp he
      exact Int.natCast_pos.mpr (Nat.pos_of_ne_zero (bne_iff_ne.mp (List.mem_filter.mp hc).2))
    tools := fun s => (Counts.mem_keys_foldl reports).trans (or_iff_right List.not_mem_nil)
    filesAnalyzed := totalOf_eq_sum _ reports
    droppedRecords := totalOf_eq_sum _ reports
    failedTools := rfl
    skippedTools := rfl }

theorem isSum_ofReports (reports more : List ToolReport) :
    (ofReports (reports ++ more)).IsSum (ofReports reports) (ofReports more) := by
  obtain ⟨htotal, hseverity, hcategory, htool, -⟩ := isTallyOf_ofReports (reports ++ more)
  rw [reported_append] at hseverity hcategory htool
  have hone := isTallyOf_ofReports reports
  have hother := isTallyOf_ofReports more
  exact {
    totalIssues := by
      rw [htotal, hone.totalIssues, hother.totalIssues, List.map_append, List.sum_append]
    bySeverity := hseverity.number_append hone.bySeverity hother.bySeverity
    byCategory := hcategory.number_append hone.byCategory hother.byCategory
    byTool := htool.number_append hone.byTool hother.byTool
    filesAnalyzed := totalOf_append _ reports more
    droppedRecords := totalOf_append _ reports more
    failedTools := toolsWith_append .error reports more
    skippedTools := toolsWith_append .skipped reports more }

/-- **The totals of a run**: they tally the reports, the totals of two rows of reports taken together are
those of both, and the exit code of the report on the run tells whether an issue of high or critical severity is
counted. -/
theorem ofReports_spec (reports more : List ToolReport) :
    (ofReports reports).IsTallyOf reports ∧
      (ofReports (reports ++ more)).IsSum (ofReports reports) (ofReports more) ∧
      ∀ projectRoot languages startedAt finishedAt wallClockMs notes,
        let report :=
          RunReport.ofReports projectRoot languages reports startedAt finishedAt wallClockMs notes
        report.totals = ofReports reports ∧
          (report.exitCode ≠ 0 ↔ 1 ≤ report.totals.bySeverity.number (Vocabulary.name Severity.high) +
            report.totals.bySeverity.number (Vocabulary.name Severity.critical)) := by
  refine ⟨isTallyOf_ofReports reports, isSum_ofReports reports more, ?_⟩
  intro projectRoot languages startedAt finishedAt wallClockMs notes report
  refine ⟨rfl, ?_⟩
  have hnumber (level : Severity) : report.totals.bySeverity.number (Vocabulary.name level) =
      countSeverity report.issues level := Counts.number_severityCounts report.issues level
  have hpos (level : Severity) :
      0 < countSeverity report.issues level ↔ ∃ i ∈ report.issues, i.severity = level := by
    simp only [countSeverity, List.countP_pos_iff, beq_iff_eq]
  have hgrave : (∃ i ∈ report.issues, i.IsGrave) ↔
      0 < countSeverity report.issues .high ∨ 0 < countSeverity report.issues .critical := by
    simp only [hpos, Issue.IsGrave, and_or_left, exists_or]
  rw [Ne, report.exitCode_eq.2, not_not, hgrave, hnumber, hnumber]
  omega

/-- A tool with a grave issue, and after it one that failed and one that was skipped. -/
theorem ofReports_spec_three :
    let issue : Issue := { (default : Issue) with severity := .high }
    let one : ToolReport := { (default : ToolReport) with tool := "gosec", issues := [issue], droppedRecords := 2 }
    let failed : ToolReport := { (default : ToolReport) with tool := "mypy", status := .error }
    let skipped : ToolReport := { (default : ToolReport) with tool := "clippy", status := .skipped }
    let totals := ofReports ([one] ++ [failed, skipped])
    totals.totalIssues = 1 ∧ totals.byTool.total = 1 ∧ totals.droppedRecords = 2 ∧
      totals.failedTools = ["mypy"] ∧ totals.skippedTools = ["clippy"] ∧
      (RunReport.ofReports "/project" [] ([one] ++ [failed, skipped]) default default 0 []).exitCode ≠ 0 := by
  intro issue one failed skipped totals
  obtain ⟨hone, hsum, -⟩ := ofReports_spec [one] [failed, skipped]
  obtain ⟨hmore, -⟩ := ofReports_spec [failed, skipped] []
  obtain ⟨hall, -, hcode⟩ := ofReports_spec ([one] ++ [failed, skipped]) []
  refine ⟨hall.totalIssues, hall.total_byTool.trans hall.totalIssues, ?_, ?_, ?_, ?_⟩
  · rw [hsum.droppedRecords, hone.droppedRecords, hmore.droppedRecords]
    rfl
  · rw [hsum.failedTools, hone.failedTools, hmore.failedTools]
    rfl
  · rw [hsum.skippedTools, hone.skippedTools, hmore.skippedTools]
    rfl
  · exact (hcode "/project" [] default default 0 []).2.mpr (by decide)

end Totals

end Assay

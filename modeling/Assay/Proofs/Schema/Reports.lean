import Assay.Proofs.Moment
import Assay.Proofs.Schema.Issues
import Assay.Schema.Reports

/-!
# Reports that were written

A report on a run that obeys the rules for reports (`RunReport.Valid`), with clocks that show universal
time, is read back from the text it is written to, in every layout (`RunReport.read_written`). Only a
whole number with more digits than are read stands in the way.
-/

namespace Assay

open Json Schema

variable {k : Nat}

/-! ## Moments and vocabularies -/

theorem Moment.conveyed {m : Moment} (hutc : m.offset = some 0) (hcounted : m.IsCounted) :
    Conveys k Moment.read m.write m := by
  refine ⟨.text _, ?_⟩
  rw [write, read, ofText_text hutc hcounted]
  exact if_neg (Int.not_lt.mpr hcounted.1)

theorem ToolStatus.ofName?_name (s : ToolStatus) : Vocabulary.ofName? (Vocabulary.name s) = some s := by
  cases s <;> rfl

theorem ProblemKind.ofName?_name (p : ProblemKind) :
    Vocabulary.ofName? (Vocabulary.name p) = some p := by
  cases p <;> rfl

/-! ## Reports on tools -/

namespace ToolReport

/-- The moments in a report. -/
def moments (r : ToolReport) : List Moment := [r.timestamp, r.startedAt, r.finishedAt]

/-- The rules for the report on a tool: an error and the status go together as they must, the issues obey
their rules, no name is counted twice, and the moments lie in the counted years. -/
structure Valid (r : ToolReport) : Prop where
  consistent : r.contradiction = none
  issues : ∀ i ∈ r.issues, i.Valid
  severities : (r.issuesBySeverity.map Prod.fst).Nodup
  categories : (r.issuesByCategory.map Prod.fst).Nodup
  moments : ∀ m ∈ r.moments, m.IsCounted

theorem distinctNames_entries (r : ToolReport) : DistinctNames r.entries := by
  simp only [entries, DistinctNames, List.map_cons, List.map_nil]
  decide +kernel

theorem conveyed {r : ToolReport} (h : r.Valid) (hutc : ∀ m ∈ r.moments, m.offset = some 0) :
    Conveys (k + 5) ToolReport.read r.write r := by
  have htext := conveys_writtenText (k := k + 4)
  have htexts := conveys_writtenTexts (k := k + 3)
  have hnat := conveys_writtenNat (k := k + 4)
  have hmoment {m : Moment} (hm : m ∈ r.moments) : Conveys (k + 4) Moment.read m.write m :=
    Moment.conveyed (hutc m hm) (h.moments m hm)
  have htimestamp := hmoment (m := r.timestamp) (by simp [ToolReport.moments])
  have hstarted := hmoment (m := r.startedAt) (by simp [ToolReport.moments])
  have hfinished := hmoment (m := r.finishedAt) (by simp [ToolReport.moments])
  have hseverities := conveys_writtenCounts (k := k + 3) h.severities
  have hcategories := conveys_writtenCounts (k := k + 3) h.categories
  have hissues := conveys_list fun i hi => Issue.conveyed (k := k) (h.issues i hi)
  have hstatus := conveys_writtenMember (k := k + 4) r.status.ofName?_name
  have hkind : Conveys (k + 4) (nullable member) _ r.errorKind :=
    conveys_getD (fun p _ => by simp [writtenMember]) fun p _ => conveys_writtenMember p.ofName?_name
  refine conveys_written r.distinctNames_entries ?plain fun record hr => ?read
  case plain =>
    simp [entries, (htext _).plain, (htexts _).plain, (hnat _).plain, htimestamp.plain, hstarted.plain,
      hfinished.plain, hseverities.plain, hcategories.plain, hissues.plain, hstatus.plain, hkind.plain]
  case read =>
    refine Eq.trans (congrArg _ ?_) (obeying_good h.consistent)
    simp only [entries, List.forall_mem_cons] at hr
    simp only [Record.required, Record.given, Record.optional, hr, (htext _).read, (htexts _).read,
      (hnat _).read, htimestamp.read, hstarted.read, hfinished.read, hseverities.read, hcategories.read,
      hissues.read, hstatus.read, hkind.read]
    rfl

end ToolReport

/-! ## Reports on runs -/

/-- The rules for the counts of a run: no name is counted twice. -/
structure Totals.Valid (t : Totals) : Prop where
  severities : (t.bySeverity.map Prod.fst).Nodup
  categories : (t.byCategory.map Prod.fst).Nodup
  tools : (t.byTool.map Prod.fst).Nodup

theorem Totals.conveyed {t : Totals} (h : t.Valid) : Conveys (k + 2) Totals.read t.write t := by
  have htexts := conveys_writtenTexts (k := k)
  have hseverities := conveys_writtenCounts (k := k) h.severities
  have hcategories := conveys_writtenCounts (k := k) h.categories
  have htools := conveys_writtenCounts (k := k) h.tools
  refine conveys_written ?names ?plain fun record hr => ?read
  case names =>
    simp only [DistinctNames, List.map_cons, List.map_nil]
    decide +kernel
  case plain =>
    simp [(htexts _).plain, hseverities.plain, hcategories.plain, htools.plain]
  case read =>
    simp only [List.forall_mem_cons] at hr
    simp only [Record.given, hr, (htexts _).read, hseverities.read, hcategories.read, htools.read]
    rfl

namespace RunReport

/-- The moments in a report and in the reports on its tools. -/
def moments (r : RunReport) : List Moment :=
  r.startedAt :: r.finishedAt :: r.reports.flatMap ToolReport.moments

/-- The rules for the report on a run: the reports on its tools and its counts obey their rules, and the
moments lie in the counted years. -/
structure Valid (r : RunReport) : Prop where
  reports : ∀ t ∈ r.reports, t.Valid
  totals : r.totals.Valid
  startedAt : r.startedAt.IsCounted
  finishedAt : r.finishedAt.IsCounted

theorem distinctNames_entries (r : RunReport) : DistinctNames r.entries := by
  simp only [entries, DistinctNames, List.map_cons, List.map_nil]
  decide +kernel

theorem conveyed {r : RunReport} (h : r.Valid) (hutc : ∀ m ∈ r.moments, m.offset = some 0) :
    Conveys (k + 7) RunReport.read r.write r := by
  have htexts := conveys_writtenTexts (k := k + 5)
  have hnat := conveys_writtenNat (k := k + 6)
  have hstarted := Moment.conveyed (k := k + 6) (hutc _ (by simp [moments])) h.startedAt
  have hfinished := Moment.conveyed (k := k + 6) (hutc _ (by simp [moments])) h.finishedAt
  have hreports : Conveys (k + 6) (tupleOf ToolReport.read) _ r.reports :=
    conveys_list fun t ht => ToolReport.conveyed (h.reports t ht) fun m hm =>
      hutc m (by simp only [moments, List.mem_cons, List.mem_flatMap]; exact .inr (.inr ⟨t, ht, hm⟩))
  have htotals := Totals.conveyed (k := k + 4) h.totals
  refine conveys_written r.distinctNames_entries ?plain fun record hr => ?read
  case plain =>
    simp [entries, (htexts _).plain, (hnat _).plain, hstarted.plain, hfinished.plain, hreports.plain,
      htotals.plain]
  case read =>
    simp only [entries, List.forall_mem_cons] at hr
    simp only [Record.required, Record.given, hr, (htexts _).read, (hnat _).read, hstarted.read,
      hfinished.read, hreports.read, htotals.read]
    rfl

/-- **Round trip.** The report on a run is read from the text that it is written to, whatever the layout:
if it obeys the rules for reports, its clocks show universal time, and no whole number in it has more
digits than are read. -/
theorem read_written {r : RunReport} (h : r.Valid) (hutc : ∀ m ∈ r.moments, m.offset = some 0)
    (hfits : r.write.Fits) (l : Layout) :
    (Json.read? (writeAt l 0 r.write).toList).map RunReport.read = .ok (.good r) := by
  have hconveyed := conveyed (k := 983) h hutc
  rw [(read?_writeAt hconveyed.plain l 0).mpr hfits, Except.map, hconveyed.read]

/-- A report with an issue that has a replacement and references. -/
def sample : RunReport where
  projectRoot := "/project"
  detectedLanguages := ["python"]
  reports :=
    [{ tool := "pylint"
       version := some "3.0.0"
       language := "python"
       timestamp := ⟨1700000000123456, some 0⟩
       target := "/project"
       startedAt := ⟨1700000000000000, some 0⟩
       finishedAt := ⟨1700000000123456, some 0⟩
       durationMs := 123
       filesAnalyzed := 1
       issuesBySeverity := [("critical", 0), ("high", 1)]
       issuesByCategory := [("security", 1)]
       issues :=
         [{ id := "0a"
            toolName := "pylint"
            canonicalPath := "src/caf\u00e9.py"
            startLine := 3
            startColumn := 1
            endLine := 4
            endColumn := 9
            severity := .high
            category := .security
            subcategory := "eval-used"
            title := "say \"no\"\n\x01"
            confidence := .mathematicalProof
            tags := ["a", "b"]
            fixSuggestion := some { replacement := "\\", startLine := 3, endLine := 4 }
            externalRefs := some { cwe := some "CWE-95" }
            crossToolPatterns := ["dynamic-evaluation"] }]
       warnings := ["one"] }]
  totals := { totalIssues := 1, byTool := [("pylint", 1)] }
  startedAt := ⟨1700000000000000, some 0⟩
  finishedAt := ⟨1700000001000000, some 0⟩
  wallClockMs := 1000

theorem sample_valid : sample.Valid where
  reports := by
    refine List.forall_mem_singleton.mpr ⟨rfl, ?_, by decide, by decide, by decide⟩
    refine List.forall_mem_singleton.mpr ⟨rfl, by decide, by decide, by decide, by decide, rfl, ?_⟩
    rintro f ⟨⟩
    exact ⟨by decide, by decide, by decide, by decide⟩
  totals := ⟨by decide, by decide, by decide⟩
  startedAt := by decide
  finishedAt := by decide

theorem read_written_sample : sample.Valid ∧ (∀ m ∈ sample.moments, m.offset = some 0) ∧
    sample.write.Fits ∧
    (Json.read? (pretty 2 sample.write).toList).map RunReport.read = .ok (.good sample) := by
  have hutc : ∀ m ∈ sample.moments, m.offset = some 0 := by decide
  have hfits : sample.write.Fits := by decide +kernel
  exact ⟨sample_valid, hutc, hfits, read_written sample_valid hutc hfits ⟨some 2⟩⟩

/-- No report comes out of a text in which the run took longer than can be written in the digits that
are read. -/
theorem wallClockMs_lt {cs : List Char} {r : RunReport}
    (h : (Json.read? cs).map RunReport.read = .ok (.good r)) :
    r.wallClockMs < 10 ^ Decimal.maxWholeDigits := by
  obtain ⟨d, hd, hread⟩ := map_eq_ok.mp h
  have hfits := fits_of_read? hd
  cases d with
  | table entries =>
      simp only [read, aliasedRecord, Checked.seq_eq_good, Checked.map_eq_good] at hread
      obtain ⟨_, _, ⟨_, wallClockMs, hbefore, hwallClock, rfl⟩, -, rfl⟩ := hread
      obtain ⟨_, _, ⟨_, _, ⟨_, _, ⟨_, _, ⟨_, _, ⟨_, -, rfl⟩, -, rfl⟩, -, rfl⟩, -, rfl⟩, -, rfl⟩, -, rfl⟩ :=
        hbefore
      obtain ⟨e, he, hnat⟩ := Record.required_eq_good hwallClock
      exact whole_lt (Datum.fits_table.mp hfits e he) (wholeFrom_eq_good hnat).2
  | _ => simp [read, aliasedRecord, Checked.complain] at hread

/-- A report on a run that took longer than can be written in the digits that are read. -/
def endless : RunReport where
  projectRoot := "/project"
  startedAt := ⟨0, some 0⟩
  finishedAt := ⟨0, some 0⟩
  wallClockMs := 10 ^ Decimal.maxWholeDigits

theorem read_written_endless : endless.Valid ∧ (∀ m ∈ endless.moments, m.offset = some 0) ∧
    (Json.read? (pretty 2 endless.write).toList).map RunReport.read ≠ .ok (.good endless) := by
  refine ⟨⟨?_, ⟨?_, ?_, ?_⟩, ?_, ?_⟩, ?_, fun h => ?_⟩
  · exact fun t ht => absurd ht List.not_mem_nil
  · decide
  · decide
  · decide
  · decide
  · decide
  · decide
  · have hlt := wallClockMs_lt h
    unfold endless at hlt
    exact Nat.lt_irrefl _ hlt

end RunReport

end Assay

import Assay.Proofs.Schema.Record
import Assay.Schema.Issues

/-!
# Issues that were written

An issue that obeys the rules for issues (`Issue.Valid`) is conveyed by the document that it is written
to (`Issue.conveyed`): the document is plain, and the issue is read from it. The same holds of the parts
of an issue.
-/

namespace Assay

open Json Schema

variable {k : Nat}

/-! ## Vocabularies and positions -/

theorem Severity.ofName?_name (s : Severity) : Vocabulary.ofName? (Vocabulary.name s) = some s := by
  cases s <;> rfl

theorem Category.ofName?_name (c : Category) : Vocabulary.ofName? (Vocabulary.name c) = some c := by
  cases c <;> rfl

theorem Confidence.ofName?_name (c : Confidence) : Vocabulary.ofName? (Vocabulary.name c) = some c := by
  cases c <;> rfl

theorem positive_int {n : Int} (h : 1 ≤ n) : positive (.int n) = .good n := by
  have hnat : Int.ofNat n.toNat = n := Int.toNat_of_nonneg (by omega)
  rw [positive, (conveys_wholeFrom (k := 0) h).read, Checked.map, hnat]

/-! ## The parts of an issue -/

/-- The rules for a replacement: its lines and columns count from one. -/
structure FixSuggestion.Valid (f : FixSuggestion) : Prop where
  startLine : 1 ≤ f.startLine
  startColumn : 1 ≤ f.startColumn
  endLine : 1 ≤ f.endLine
  endColumn : 1 ≤ f.endColumn

theorem FixSuggestion.conveyed {f : FixSuggestion} (h : f.Valid) :
    Conveys (k + 1) FixSuggestion.read (f.write .camel) f := by
  have hdescription := conveys_writtenText (k := k) f.description
  refine conveys_written ?names ?plain fun r hr => ?read
  case names =>
    simp only [DistinctNames, List.map_cons, List.map_nil]
    decide +kernel
  case plain =>
    simp [hdescription.plain]
  case read =>
    -- every field is found under its name, so that only the readings of the values are left
    simp only [List.forall_mem_cons] at hr
    simp only [Record.required, Record.given, Record.optional, hr, positive_int h.startLine,
      positive_int h.startColumn, positive_int h.endLine, positive_int h.endColumn, hdescription.read]
    rfl

theorem References.conveyed (r : References) :
    Conveys (k + 1) References.read (r.write .camel) r := by
  have htext := conveys_writtenText (k := k)
  refine conveys_written ?names ?plain fun record hr => ?read
  case names =>
    simp only [DistinctNames, List.map_cons, List.map_nil]
    decide +kernel
  case plain =>
    simp [(htext _).plain]
  case read =>
    simp only [List.forall_mem_cons] at hr
    simp only [Record.given, Record.optional, hr, (htext _).read]
    rfl

theorem SearchRadius.conveyed (r : SearchRadius) : Conveys (k + 1) SearchRadius.read r.write r := by
  refine conveys_written ?names ?plain fun record hr => ?read
  case names =>
    simp only [DistinctNames, List.map_cons, List.map_nil]
    decide +kernel
  case plain =>
    simp
  case read =>
    simp only [List.forall_mem_cons] at hr
    simp only [Record.given, hr]
    rfl

theorem CorrelationHints.conveyed (h : CorrelationHints) :
    Conveys (k + 2) CorrelationHints.read h.write h := by
  have hradius := SearchRadius.conveyed (k := k) h.searchRadius
  have htexts := conveys_writtenTexts (k := k)
  refine conveys_written ?names ?plain fun record hr => ?read
  case names =>
    simp only [DistinctNames, List.map_cons, List.map_nil]
    decide +kernel
  case plain =>
    simp [hradius.plain, (htexts _).plain]
  case read =>
    simp only [List.forall_mem_cons] at hr
    simp only [Record.given, hr, hradius.read, (htexts _).read]
    rfl

/-! ## Issues -/

namespace Issue

/-- The rules for an issue: its path is relative, goes nowhere up and is written with slashes; its lines
and columns count from one; it does not end before it starts; and its replacement obeys the rules for
replacements. -/
structure Valid (i : Issue) : Prop where
  path : pathComplaint i.canonicalPath = none
  startLine : 1 ≤ i.startLine
  startColumn : 1 ≤ i.startColumn
  endLine : 1 ≤ i.endLine
  endColumn : 1 ≤ i.endColumn
  span : i.spanComplaint = none
  fix : ∀ f ∈ i.fixSuggestion, f.Valid

theorem distinctNames_entries (i : Issue) : DistinctNames i.entries := by
  simp only [entries, DistinctNames, List.map_cons, List.map_nil]
  decide +kernel

theorem nodup_entries (i : Issue) : (i.entries.map Prod.fst).Nodup := i.distinctNames_entries.of_map

theorem conveyed {i : Issue} (h : i.Valid) : Conveys (k + 3) Issue.read i.write i := by
  have htext := conveys_writtenText (k := k + 2)
  have htexts := conveys_writtenTexts (k := k + 1)
  have hseverity := conveys_writtenMember (k := k + 2) i.severity.ofName?_name
  have hcategory := conveys_writtenMember (k := k + 2) i.category.ofName?_name
  have hconfidence := conveys_writtenMember (k := k + 2) i.confidence.ofName?_name
  have hfix : Conveys (k + 2) (nullable FixSuggestion.read) _ i.fixSuggestion :=
    conveys_getD (fun f _ => by simp [FixSuggestion.write, written]) fun f hf =>
      FixSuggestion.conveyed (h.fix f hf)
  have hrefs : Conveys (k + 2) (nullable References.read) _ i.externalRefs :=
    conveys_getD (fun r _ => by simp [References.write, written]) fun r _ => r.conveyed
  have hhints := CorrelationHints.conveyed (k := k) i.correlationHints
  have hpath : readPath (.text i.canonicalPath) = .good i.canonicalPath := obeying_good h.path
  refine conveys_written i.distinctNames_entries ?plain fun r hr => ?read
  case plain =>
    simp [entries, (htext _).plain, (htexts _).plain, hseverity.plain, hcategory.plain, hconfidence.plain,
      hfix.plain, hrefs.plain, hhints.plain]
  case read =>
    -- the rule for the span is the last to be looked at, when all fields have been read
    refine Eq.trans (congrArg _ ?_) (obeying_good h.span)
    simp only [entries, List.forall_mem_cons] at hr
    simp only [Record.required, Record.given, Record.optional, hr, (htext _).read, (htexts _).read,
      hpath, positive_int h.startLine, positive_int h.startColumn, positive_int h.endLine,
      positive_int h.endColumn, hseverity.read, hcategory.read, hconfidence.read, hfix.read, hrefs.read,
      hhints.read]
    rfl

end Issue

end Assay

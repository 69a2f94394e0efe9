import Assay.Draft.Assembly
import Assay.Proofs.Outcome
import Assay.Proofs.Schema.Reports

/-!
# Drafts that echo their issues

A draft echoes its issue if each of its fields has the value that the issue has there, and no member was
replaced by its name (`Draft.Echoes`). A draft in which nothing was filled in is one of these. What is done with
such drafts comes to what it comes to with their issues: they are stamped alike (`Draft.Echoes.annotate`), the
same pairs of them are candidates (`Draft.candidates_of_echoes`), and the report that is put together from them is
the one on a run with their issues (`Assembly.read_of_echoes`).
-/

namespace Assay

/-! ## Texts as values -/

namespace Datum

@[simp] theorem same_text (s t : String) : same (.text s) (.text t) = (s == t) := rfl

theorem any_same_text (s : String) (texts : List String) :
    (texts.map text).any (same (.text s)) = texts.contains s := by
  rw [List.any_map, List.contains_eq_any_beq]
  rfl

theorem parts_writtenTexts (texts : List String) : (Schema.writtenTexts texts).parts = .ok (texts.map text) := rfl

theorem has_writtenTexts (needle : String) (texts : List String) :
    (Schema.writtenTexts texts).has needle = .ok (texts.contains needle) :=
  congrArg Except.ok (any_same_text needle texts)

/-- Of texts the first occurrences stay. -/
theorem distinct_texts (texts : List String) : distinct (texts.map text) = .ok (texts.eraseDups.map text) := by
  -- generalised to the texts that have been seen before
  have hfold (seen : List String) :
      ((texts.map text).foldl (fun seen d => if seen.any d.same then seen else d :: seen) (seen.map text)).reverse =
        (List.eraseDupsBy.loop (· == ·) texts seen).map text := by
    induction texts generalizing seen with
    | nil => rw [List.eraseDupsBy.loop, List.map_reverse]; rfl
    | cons s texts ih =>
        have hseen : (seen.map text).any (same (.text s)) = seen.any (s == ·) := List.any_map
        rw [List.map_cons, List.foldl_cons, List.eraseDupsBy.loop, hseen]
        cases seen.any (s == ·) with
        | true => exact ih seen
        | false => exact ih (s :: seen)
  have hkeys : (texts.map text).mapM asKey = .ok (texts.map text) := by
    have hmap : (texts.map text).mapM asKey = .ok ((texts.map text).map id) :=
      mapM_eq_ok_map (List.forall_mem_map.mpr fun _ _ => rfl)
    rwa [List.map_id] at hmap
  rw [distinct, hkeys]
  exact congrArg Except.ok (hfold [])

theorem size_text (s : String) : (text s).size = .ok s.length := by
  show Except.ok (s.toList.map _).length = _
  rw [List.length_map, String.length_toList]

end Datum

namespace Draft

open Schema

/-- The fields of which a member is asked for, and not its name alone. -/
def memberFields : List String := ["severity", "category", "correlation_hints"]

/-- Every field has the value that the issue has there, and members are where they are asked for. -/
structure Echoes (i : Draft) : Prop where
  value : ∀ field d, (field, d) ∈ i.issue.entries → i.value field = d
  members : ∀ field ∈ memberFields, i.isFilled field = false

/-- Each field that is looked at shows what the issue has there. -/
structure Shows (i : Draft) : Prop where
  toolName : i.value "tool_name" = .text i.issue.toolName
  path : i.value "canonical_path" = .text i.issue.canonicalPath
  startLine : i.value "start_line" = .int i.issue.startLine
  severity : i.value "severity" = writtenMember i.issue.severity
  category : i.value "category" = writtenMember i.issue.category
  rule : i.value "subcategory" = .text i.issue.subcategory
  tags : i.value "tags" = writtenTexts i.issue.tags
  key : i.value "correlation_key" = .text i.issue.correlationKey
  ownPatterns : i.value "cross_tool_patterns" = writtenTexts i.issue.crossToolPatterns
  toolCategory : i.value "tool_category" = .text i.issue.toolCategory
  ecosystem : i.value "ecosystem" = .text i.issue.ecosystem

variable {i a b : Draft} {drafts later : List Draft}

theorem value_of_not_filled {field : String} (h : i.isFilled field = false) {d : Datum}
    (hmem : (field, d) ∈ i.issue.entries) : i.value field = d := by
  have hnone : Datum.lookup field i.filled = none := by simpa [isFilled] using h
  rw [value, hnone, Datum.lookup_of_mem i.issue.nodup_entries hmem]
  rfl

/-- A draft in which nothing was filled in echoes its issue. -/
theorem echoes_of_unfilled (h : i.filled = []) : i.Echoes where
  value _ _ hmem := value_of_not_filled (by rw [isFilled, h]; rfl) hmem
  members _ _ := by rw [isFilled, h]; rfl

namespace Echoes

theorem write (h : i.Echoes) : i.write = i.issue.write := by
  have hfields : (i.issue.entries.map fun e => (e.1, i.value e.1)) = i.issue.entries := by
    refine (List.map_congr_left ?_).trans (List.map_id _)
    rintro ⟨field, d⟩ hmem
    exact Prod.ext rfl (h.value field d hmem)
  exact congrArg (written .camel) hfields

theorem shows (h : i.Echoes) : i.Shows := by
  constructor
  all_goals exact h.value _ _ (by simp only [Issue.entries, List.mem_cons, true_or, or_true])

/-! ## Stamping -/

theorem toolPatterns (h : i.Echoes) : i.toolPatterns = .ok i.issue.toolPatterns := by
  unfold Draft.toolPatterns
  rw [h.shows.toolName, h.shows.rule, h.shows.tags]
  dsimp only
  split
  · next hname =>
    rw [Issue.toolPatterns, Datum.text.inj hname]
    rfl
  · next hname =>
    rw [Issue.toolPatterns, Datum.text.inj hname]
    rfl
  · next hname =>
    rw [Issue.toolPatterns, Datum.text.inj hname, Datum.has_writtenTexts, Datum.has_writtenTexts]
    rfl
  · next tool hclippy hmypy hpylint hname =>
    obtain rfl := Datum.text.inj hname
    split
    · rfl
    · next hother =>
      rw [Bool.or_eq_true, beq_iff_eq, beq_iff_eq, not_or] at hother
      -- the rules of no other tool stand for anything
      refine congrArg Except.ok (Eq.symm ?_)
      unfold Issue.toolPatterns
      split
      · next hname => exact absurd hname hother.1
      · next hname => exact absurd hname hother.2
      · next hname => exact absurd hname hclippy
      · next hname => exact absurd hname hmypy
      · next hname => exact absurd hname hpylint
      · rfl
  · next hnone => exact absurd rfl (hnone _)

theorem category? (h : i.Echoes) : i.category? = .ok (some i.issue.category) := by
  unfold Draft.category?
  rw [h.shows.category]
  exact congrArg Except.ok i.issue.category.ofName?_name

theorem patterns (h : i.Echoes) : i.patterns = .ok (i.issue.patterns.map Datum.text) := by
  unfold Draft.patterns
  rw [h.shows.ownPatterns, h.toolPatterns, h.category?, h.shows.rule, h.members "category" (by decide),
    h.members "severity" (by decide)]
  simp only [Datum.parts_writtenTexts, Datum.asText, ok_bind, pure_bind, Except.map, Option.map_some,
    Option.getD_some, Option.some_beq_some, Bool.not_false, Bool.true_and, ← List.map_append,
    Datum.distinct_texts]
  split
  · next hkind => simp only [Issue.patterns, hkind, Bool.true_and, List.append_assoc]
  · next hkind => simp only [Issue.patterns, hkind, Bool.false_and, List.append_assoc]

theorem correlationKey (h : i.Echoes) : i.correlationKey =
    Assay.correlationKey i.issue.canonicalPath i.issue.startLine i.issue.category i.issue.toolName := by
  unfold Draft.correlationKey
  rw [List.map_cons, List.map_cons, List.map_cons, List.map_cons, h.shows.path, h.shows.startLine,
    h.shows.category, h.shows.toolName]
  rfl

/-- The draft is stamped like its issue, and the values that were filled in for what is stamped are dropped. -/
theorem annotate (h : i.Echoes) (toolCategory : String) (radius : SearchRadius) :
    i.annotate toolCategory radius = (i.issue.annotate toolCategory radius).map fun issue =>
      { issue, filled := i.filled.filter fun e => !stampedFields.contains e.1 } := by
  rw [Draft.annotate]
  split
  · next hfilled =>
    rw [List.isEmpty_iff.mp hfilled, Issue.annotate]
    generalize Assay.correlationKey i.issue.canonicalPath _ _ _ = found
    cases found with
    | error b => rfl
    | ok key => rfl
  · next hfilled =>
    have hread : tupleOf text (.list (i.issue.patterns.map Datum.text)) = .good i.issue.patterns :=
      (conveys_writtenTexts (k := 0) i.issue.patterns).read
    rw [h.patterns, h.correlationKey, ok_bind, hread, Issue.annotate]
    generalize Assay.correlationKey i.issue.canonicalPath _ _ _ = found
    cases found with
    | error b => rfl
    | ok key => rfl

/-- What is not stamped is as it was. -/
theorem mem_entries_of_stamped {issue : Issue} {key toolCategory field : String} {radius : SearchRadius} {d : Datum}
    (hfield : stampedFields.contains field = false)
    (hmem : (field, d) ∈ (issue.stamped key toolCategory radius).entries) : (field, d) ∈ issue.entries := by
  have hsame : (issue.stamped key toolCategory radius).entries.filter (fun e => !stampedFields.contains e.1) =
      issue.entries.filter fun e => !stampedFields.contains e.1 := rfl
  have hkept : (field, d) ∈ issue.entries.filter fun e => !stampedFields.contains e.1 := by
    rw [← hsame, List.mem_filter, hfield]
    exact ⟨hmem, rfl⟩
  exact (List.mem_filter.mp hkept).1

/-- A stamped draft echoes again. -/
theorem of_annotate (h : i.Echoes) {toolCategory : String} {radius : SearchRadius} {stamped : Draft}
    (hstamped : i.annotate toolCategory radius = .ok stamped) : stamped.Echoes := by
  rw [h.annotate] at hstamped
  obtain ⟨issue, hissue, rfl⟩ := map_eq_ok.mp hstamped
  obtain ⟨key, -, hkey⟩ := bind_eq_ok.mp hissue
  obtain rfl := pure_eq_ok.mp hkey
  -- a field that is stamped is no longer filled, and all others are as they were
  have hlookup (field : String) :=
    Datum.lookup_filter field (fun name => !stampedFields.contains name) i.filled
  constructor
  case value =>
    intro field d hmem
    cases hfield : stampedFields.contains field with
    | true => exact value_of_not_filled (by rw [isFilled, hlookup, hfield]; rfl) hmem
    | false =>
        have hvalue := h.value field d (mem_entries_of_stamped hfield hmem)
        cases hold : Datum.lookup field i.filled with
        | none => exact value_of_not_filled (by rw [isFilled, hlookup, hfield, hold]; rfl) hmem
        | some old =>
            rw [Draft.value, hold] at hvalue
            rw [Draft.value, hlookup, hfield, hold]
            exact hvalue
  case members =>
    intro field hmember
    have hnone := h.members field hmember
    rw [isFilled, hlookup]
    split
    · exact hnone
    · rfl

theorem correlationProblems (h : i.Echoes) : i.correlationProblems = .ok i.issue.correlationProblems := by
  unfold Draft.correlationProblems
  split
  · rfl
  · rw [h.shows.startLine, h.shows.key, h.shows.path, h.shows.toolCategory, h.shows.ecosystem]
    simp only [Number.ofDatum, Number.ofDatum?, Number.less_whole, Datum.isTruthy, Datum.size_text, ok_bind,
      Bool.not_not, Issue.correlationProblems]
    cases i.issue.correlationKey.isEmpty with
    | true => rfl
    | false => rfl

/-! ## Candidates -/

theorem radiusLines (h : i.Echoes) : i.radiusLines = .ok i.issue.correlationHints.searchRadius.lines := by
  rw [Draft.radiusLines, h.members "correlation_hints" (by decide)]
  rfl

theorem areNear (ha : a.Echoes) (hb : b.Echoes) : a.areNear b = .ok (Assay.areNear a.issue b.issue) := by
  unfold Draft.areNear Assay.areNear
  rw [ha.shows.path, hb.shows.path, ha.shows.startLine, hb.shows.startLine, ha.radiusLines, hb.radiusLines,
    Datum.same_text]
  cases hpath : a.issue.canonicalPath == b.issue.canonicalPath with
  | false => rfl
  | true =>
      show Except.ok ((Number.whole (a.issue.startLine + -b.issue.startLine)).abs.atMost _) = _
      rw [Number.abs, Number.atMost_whole, Bool.true_and, Int.sub_eq_add_neg]

theorem sharePattern (ha : a.Echoes) (hb : b.Echoes) :
    a.sharePattern b = .ok (a.issue.crossToolPatterns.any b.issue.crossToolPatterns.contains) := by
  unfold Draft.sharePattern
  rw [ha.shows.ownPatterns, hb.shows.ownPatterns]
  simp only [Datum.parts_writtenTexts, Datum.distinct_texts, ok_bind]
  refine congrArg Except.ok ?_
  rw [List.any_map, Bool.eq_iff_iff]
  simp only [List.any_eq_true, Function.comp_apply, Datum.any_same_text, List.contains_iff_mem, List.mem_eraseDups]

theorem mayCorrelate (ha : a.Echoes) (hb : b.Echoes) :
    a.mayCorrelate b = .ok (Assay.mayCorrelate a.issue b.issue) := by
  unfold Draft.mayCorrelate Assay.mayCorrelate
  rw [ha.shows.key, hb.shows.key, ha.areNear hb, ha.sharePattern hb]
  dsimp only
  rw [Datum.same_text, Datum.isTruthy]
  split
  · rfl
  · rw [ok_bind]
    split
    · rfl
    · rw [ok_bind]
      split
      · rfl
      · rfl

end Echoes

/-- The issues of a pair of drafts, with the reason. -/
def asCandidate (pair : Pair) : Candidate := ⟨pair.1.issue, pair.2.1.issue, pair.2.2⟩

theorem pairsWith_of_echoes (crossToolOnly : Bool) (ha : a.Echoes) (h : ∀ i ∈ later, i.Echoes) :
    ∃ found, pairsWith crossToolOnly a later = .ok found ∧
      found.map asCandidate = candidatesWith crossToolOnly a.issue (later.map issue) := by
  induction later with
  | nil => exact ⟨[], rfl, rfl⟩
  | cons b later ih =>
      obtain ⟨hb, hlater⟩ := List.forall_mem_cons.mp h
      obtain ⟨others, hothers, hmap⟩ := ih hlater
      rw [pairsWith, ha.shows.toolName, hb.shows.toolName, Datum.same_text, ha.mayCorrelate hb, hothers]
      rw [candidatesWith, List.map_cons, List.filterMap_cons]
      by_cases hskipped : (crossToolOnly && a.issue.toolName == b.issue.toolName) = true
      · rw [if_pos hskipped, if_pos hskipped]
        exact ⟨others, rfl, hmap⟩
      · rw [if_neg hskipped, if_neg hskipped]
        cases Assay.mayCorrelate a.issue b.issue with
        | none => exact ⟨others, rfl, hmap⟩
        | some r => exact ⟨(a, b, r) :: others, rfl, congrArg _ hmap⟩

theorem pairs_of_echoes (crossToolOnly : Bool) (h : ∀ i ∈ drafts, i.Echoes) :
    ∃ found, pairs crossToolOnly drafts = .ok found ∧
      found.map asCandidate = correlationCandidates crossToolOnly (drafts.map issue) := by
  induction drafts with
  | nil => exact ⟨[], rfl, rfl⟩
  | cons a later ih =>
      obtain ⟨ha, hlater⟩ := List.forall_mem_cons.mp h
      obtain ⟨own, hown, hmap⟩ := pairsWith_of_echoes crossToolOnly ha hlater
      obtain ⟨others, hothers, hmaps⟩ := ih hlater
      rw [pairs, hown, hothers]
      refine ⟨own ++ others, rfl, ?_⟩
      rw [List.map_append, hmap, hmaps, List.map_cons, correlationCandidates]

/-- **Drafts that echo their issues are paired like them.** -/
theorem candidates_of_echoes (crossToolOnly : Bool) (h : ∀ i ∈ drafts, i.Echoes) :
    ∃ found, candidates crossToolOnly drafts = .ok found ∧
      found.map asCandidate = correlationCandidates crossToolOnly (drafts.map issue) := by
  unfold candidates
  split
  · refine ⟨_, rfl, ?_⟩
    rw [List.map_map]
    exact List.map_id _
  · exact pairs_of_echoes crossToolOnly h

/-! ## Counting -/

theorem keysOf_eq {field : String} (name : Issue → String)
    (h : ∀ i ∈ drafts, i.value field = .text (name i.issue)) :
    keysOf drafts field = .ok ((drafts.map issue).map fun i => .text (name i)) := by
  rw [List.map_map]
  apply mapM_eq_ok_map
  intro i hi
  rw [h i hi]
  rfl

theorem countName_names {κ : Type} [Vocabulary κ] [DecidableEq κ]
    (hname : ∀ k : κ, Vocabulary.ofName? (Vocabulary.name k) = some k) (kind : Issue → κ)
    (issues : List Issue) (k : κ) :
    countName (issues.map fun i => .text (Vocabulary.name (kind i))) (Vocabulary.name k) =
      (issues.countP fun i => kind i == k : Nat) := by
  have hsame (i : Issue) : (Vocabulary.name (kind i) == Vocabulary.name k) = (kind i == k) := by
    rw [Bool.eq_iff_iff, beq_iff_eq, beq_iff_eq]
    refine ⟨fun heq => Option.some.inj ?_, congrArg _⟩
    rw [← hname, heq, hname]
  rw [countName, List.countP_map]
  simp only [Function.comp_def, Datum.same_text, hsame]

theorem severityCounts_of_echoes (h : ∀ i ∈ drafts, i.Echoes) :
    severityCounts drafts = .ok (Assay.severityCounts (drafts.map issue)) := by
  rw [severityCounts, keysOf_eq (fun i => Vocabulary.name i.severity) fun i hi => (h i hi).shows.severity, ok_bind]
  simp only [countName_names Severity.ofName?_name Issue.severity]
  rfl

theorem categoryCounts_of_echoes (h : ∀ i ∈ drafts, i.Echoes) :
    categoryCounts drafts = .ok (Assay.categoryCounts (drafts.map issue)) := by
  rw [categoryCounts, keysOf_eq (fun i => Vocabulary.name i.category) fun i hi => (h i hi).shows.category, ok_bind]
  simp only [countName_names Category.ofName?_name Issue.category]
  rw [List.filter_map, Assay.categoryCounts]
  refine congrArg Except.ok (congrArg _ (List.filter_congr fun c _ => ?_))
  show (((countCategory (drafts.map issue) c : Nat) : Int) != 0) = _
  rw [Bool.eq_iff_iff, bne_iff_ne, bne_iff_ne, Int.natCast_ne_zero]

end Draft

namespace Assembly

variable {d : Datum} {part : AssembledReport} {a : Assembly}

theorem success_eq_ok (h : success d = .ok part) :
    ∃ (head : ReportHead) (n dropped : Nat) (warnings : List String) (bySeverity byCategory : Counts),
      Draft.severityCounts part.drafts = .ok bySeverity ∧ Draft.categoryCounts part.drafts = .ok byCategory ∧
        part.report = { head.success (part.drafts.map Draft.issue) n warnings dropped with
          issuesBySeverity := bySeverity, issuesByCategory := byCategory } := by
  obtain ⟨_, -, h⟩ := bind_eq_ok.mp h
  obtain ⟨drafts, -, h⟩ := bind_eq_ok.mp h
  obtain ⟨_, -, h⟩ := bind_eq_ok.mp h
  obtain ⟨target, -, h⟩ := bind_eq_ok.mp h
  obtain ⟨startedAt, -, h⟩ := bind_eq_ok.mp h
  obtain ⟨finishedAt, -, h⟩ := bind_eq_ok.mp h
  obtain ⟨_, -, h⟩ := bind_eq_ok.mp h
  obtain ⟨bySeverity, hseverity, h⟩ := bind_eq_ok.mp h
  obtain ⟨byCategory, hcategory, h⟩ := bind_eq_ok.mp h
  obtain ⟨_, -, h⟩ := bind_eq_ok.mp h
  obtain ⟨p, -, h⟩ := bind_eq_ok.mp h
  obtain rfl := pure_eq_ok.mp h
  exact ⟨p.head target startedAt finishedAt, _, _, _, _, _, hseverity, hcategory, rfl⟩

theorem failure_eq_ok (h : failure d = .ok part) :
    ∃ (head : ReportHead) (problem : Problem) (n dropped : Nat) (warnings : List String),
      part = ⟨head.failed problem n warnings dropped, []⟩ := by
  obtain ⟨_, -, h⟩ := bind_eq_ok.mp h
  obtain ⟨target, -, h⟩ := bind_eq_ok.mp h
  obtain ⟨startedAt, -, h⟩ := bind_eq_ok.mp h
  obtain ⟨finishedAt, -, h⟩ := bind_eq_ok.mp h
  obtain ⟨_, -, h⟩ := bind_eq_ok.mp h
  obtain ⟨kind, -, h⟩ := bind_eq_ok.mp h
  obtain ⟨_, -, h⟩ := bind_eq_ok.mp h
  obtain ⟨_, -, h⟩ := bind_eq_ok.mp h
  obtain ⟨p, -, h⟩ := bind_eq_ok.mp h
  obtain ⟨detail, -, h⟩ := bind_eq_ok.mp h
  exact ⟨p.head target startedAt finishedAt, ⟨kind, detail⟩, _, _, _, (pure_eq_ok.mp h).symm⟩

theorem skipped_eq_ok (h : skipped d = .ok part) :
    ∃ (head : ReportHead) (reason : String), part = ⟨head.skipped reason, []⟩ := by
  obtain ⟨_, -, h⟩ := bind_eq_ok.mp h
  obtain ⟨target, -, h⟩ := bind_eq_ok.mp h
  obtain ⟨startedAt, -, h⟩ := bind_eq_ok.mp h
  obtain ⟨finishedAt, -, h⟩ := bind_eq_ok.mp h
  obtain ⟨_, -, h⟩ := bind_eq_ok.mp h
  obtain ⟨p, -, h⟩ := bind_eq_ok.mp h
  exact ⟨p.head target startedAt finishedAt, _, (pure_eq_ok.mp h).symm⟩

/-- The issues of a report are those of its drafts, and it counts them. -/
theorem reportOf_of_echoes (h : reportOf d = .ok part) (hechoes : ∀ i ∈ part.drafts, i.Echoes) :
    part.report.issues = part.drafts.map Draft.issue ∧
      part.report.issuesBySeverity = severityCounts part.report.issues ∧
      part.report.issuesByCategory = categoryCounts part.report.issues := by
  unfold reportOf at h
  split at h
  · cases h
  split at h
  · obtain ⟨head, problem, n, dropped, warnings, rfl⟩ := failure_eq_ok h
    exact ⟨rfl, rfl, rfl⟩
  · obtain ⟨head, reason, rfl⟩ := skipped_eq_ok h
    exact ⟨rfl, rfl, rfl⟩
  · obtain ⟨head, n, dropped, warnings, bySeverity, byCategory, hseverity, hcategory, hreport⟩ := success_eq_ok h
    rw [Draft.severityCounts_of_echoes hechoes] at hseverity
    rw [Draft.categoryCounts_of_echoes hechoes] at hcategory
    obtain rfl := Except.ok.inj hseverity
    obtain rfl := Except.ok.inj hcategory
    rw [hreport]
    exact ⟨rfl, rfl, rfl⟩

/-- An entry that is replaced by itself leaves a document as it is. -/
theorem replaceEntry_self {key : String} {v : Datum} {entries : List (String × Datum)}
    (hkeys : (entries.map Prod.fst).Nodup) (h : (key, v) ∈ entries) :
    Draft.replaceEntry key v entries = entries := by
  refine (List.map_congr_left ?_).trans (List.map_id _)
  rintro ⟨name, old⟩ hmem
  dsimp only
  split
  · next hname =>
    obtain rfl := eq_of_beq hname
    have hsame := (Datum.lookup_of_mem hkeys h).symm.trans (Datum.lookup_of_mem hkeys hmem)
    exact Prod.ext rfl (Option.some.inj hsame)
  · rfl

theorem write_part (hissues : part.report.issues = part.drafts.map Draft.issue)
    (hechoes : ∀ i ∈ part.drafts, i.Echoes) : part.write = part.report.write := by
  have hwritten : part.drafts.map Draft.write = part.report.issues.map Issue.write := by
    rw [hissues, List.map_map]
    exact List.map_congr_left fun i hi => (hechoes i hi).write
  rw [AssembledReport.write, hwritten, replaceEntry_self part.report.distinctNames_entries.of_map]
  · rfl
  · simp only [ToolReport.entries, List.mem_cons, true_or, or_true]

theorem write_eq (hreports : a.run.reports = a.parts.map (·.report))
    (hparts : ∀ part ∈ a.parts, part.write = part.report.write) : a.write = a.run.write := by
  have hwritten : a.parts.map (·.write) = a.run.reports.map ToolReport.write := by
    rw [hreports, List.map_map]
    exact List.map_congr_left hparts
  rw [write, hwritten, replaceEntry_self a.run.distinctNames_entries.of_map]
  · rfl
  · simp only [RunReport.entries, List.mem_cons, true_or, or_true]

/-- What is put together in an assembly that was read. -/
theorem read_eq_ok (h : read d = .ok a) :
    (∀ part ∈ a.parts, ∃ document, reportOf document = .ok part) ∧
      ∃ (root : String) (languages notes : List String) (startedAt finishedAt : Moment) (wallClockMs : Int)
        (bySeverity byCategory : Counts),
        Draft.severityCounts a.drafts = .ok bySeverity ∧ Draft.categoryCounts a.drafts = .ok byCategory ∧
          let run := RunReport.ofReports root languages (a.parts.map (·.report)) startedAt finishedAt
            wallClockMs notes
          a.run = { run with totals := { run.totals with bySeverity, byCategory } } := by
  obtain ⟨documents, -, h⟩ := bind_eq_ok.mp h
  obtain ⟨parts, hparts, h⟩ := bind_eq_ok.mp h
  obtain ⟨root, -, h⟩ := bind_eq_ok.mp h
  obtain ⟨startedAt, -, h⟩ := bind_eq_ok.mp h
  obtain ⟨finishedAt, -, h⟩ := bind_eq_ok.mp h
  obtain ⟨_, -, h⟩ := bind_eq_ok.mp h
  obtain ⟨_, -, h⟩ := bind_eq_ok.mp h
  obtain ⟨_, -, h⟩ := bind_eq_ok.mp h
  obtain ⟨p, -, h⟩ := bind_eq_ok.mp h
  obtain ⟨bySeverity, hseverity, h⟩ := bind_eq_ok.mp h
  obtain ⟨byCategory, hcategory, h⟩ := bind_eq_ok.mp h
  obtain rfl := pure_eq_ok.mp h
  refine ⟨?_, root, p.languages, p.notes, startedAt, finishedAt, p.wallClockMs, bySeverity, byCategory,
    hseverity, hcategory, rfl⟩
  intro part hpart
  obtain ⟨document, -, hreport⟩ := exists_of_mem_mapM hparts part hpart
  exact ⟨document, hreport⟩

theorem highestSeverity_of_echoes (hechoes : ∀ i ∈ a.drafts, i.Echoes) :
    a.highestSeverity = .ok a.run.highestSeverity := by
  refine if_neg ?_
  rw [List.any_eq_true]
  rintro ⟨i, hi, hfilled⟩
  rw [(hechoes i hi).members "severity" (by decide)] at hfilled
  exact Bool.false_ne_true hfilled

/-- **Reports put together from drafts that echo their issues** are the reports on runs with these issues. -/
theorem read_of_echoes (h : read d = .ok a) (hechoes : ∀ i ∈ a.drafts, i.Echoes) :
    ∃ (root : String) (languages notes : List String) (startedAt finishedAt : Moment) (wallClockMs : Int),
      a.run = RunReport.ofReports root languages (a.parts.map (·.report)) startedAt finishedAt wallClockMs notes ∧
        a.run.issues = a.drafts.map Draft.issue ∧ a.highestSeverity = .ok a.run.highestSeverity ∧
        a.write = a.run.write := by
  obtain ⟨hparts, root, languages, notes, startedAt, finishedAt, wallClockMs, bySeverity, byCategory,
    hseverity, hcategory, hrun⟩ := read_eq_ok h
  have hdrafts (part : AssembledReport) (hpart : part ∈ a.parts) : ∀ i ∈ part.drafts, i.Echoes :=
    fun i hi => hechoes i (List.mem_flatMap.mpr ⟨part, hpart, hi⟩)
  have hown (part : AssembledReport) (hpart : part ∈ a.parts) :
      part.report.issues = part.drafts.map Draft.issue := by
    obtain ⟨document, hreport⟩ := hparts part hpart
    exact (reportOf_of_echoes hreport (hdrafts part hpart)).1
  have hissues : (a.parts.map (·.report)).flatMap (·.issues) = a.drafts.map Draft.issue := by
    rw [drafts, List.flatMap_map, List.map_flatMap]
    exact List.flatMap_congr hown
  -- the counts are those that the run has without drafts
  rw [Draft.severityCounts_of_echoes hechoes, ← hissues] at hseverity
  rw [Draft.categoryCounts_of_echoes hechoes, ← hissues] at hcategory
  obtain rfl := Except.ok.inj hseverity
  obtain rfl := Except.ok.inj hcategory
  have hreports : a.run.reports = a.parts.map (·.report) := by rw [hrun]; rfl
  refine ⟨root, languages, notes, startedAt, finishedAt, wallClockMs, hrun, ?_,
    highestSeverity_of_echoes hechoes, ?_⟩
  · rw [← hissues, ← hreports]
    rfl
  · exact write_eq hreports fun part hpart => write_part (hown part hpart) (hdrafts part hpart)

end Assembly

end Assay

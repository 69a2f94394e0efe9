import Mathlib.Data.List.ReduceOption
import Assay.Proofs.Acceptance

/-!
# Filters

Each finding of a report becomes an issue or none, and options leave out some of the issues: that is all
that normalizing a report does (`Profile.normalize_eq`). So every finding is counted once, and options that
narrow others let through less of the same (`Profile.normalize_narrows`).
-/

namespace Assay

open Files

/-! ## What options let through -/

/-- More patterns match more rules. -/
theorem matchesRule_mono {rule : String} {patterns patterns' : List String} (h : patterns ⊆ patterns')
    (hmatches : matchesRule rule patterns = true) : matchesRule rule patterns' = true := by
  obtain ⟨pattern, hpattern, hstart⟩ := List.any_eq_true.mp hmatches
  exact List.any_eq_true.mpr ⟨pattern, h hpattern, hstart⟩

namespace LanguageOptions

variable {o o' : LanguageOptions} {i : Issue}

theorem admits_iff : o.admits i = true ↔ i.severity.atLeast o.severityThreshold = true ∧
    (o.includeRules = [] ∨ matchesRule i.subcategory o.includeRules = true) ∧
    ¬ matchesRule i.subcategory o.excludeRules = true := by
  simp [admits, and_assoc]

/-- The first options are at least as strict as the second ones. To include no rules at all means to
include every rule, so the narrower options may do that only if the others do. -/
structure Narrows (o' o : LanguageOptions) : Prop where
  threshold : o'.severityThreshold.atLeast o.severityThreshold = true
  excluded : o.excludeRules ⊆ o'.excludeRules
  included : o'.includeRules = o.includeRules ∨
    o'.includeRules ≠ [] ∧ (o.includeRules = [] ∨ o'.includeRules ⊆ o.includeRules)

theorem Narrows.includes (h : o'.Narrows o) {rule : String}
    (hrule : o'.includeRules = [] ∨ matchesRule rule o'.includeRules = true) :
    o.includeRules = [] ∨ matchesRule rule o.includeRules = true := by
  rcases h.included with hsame | ⟨hsome, hall | hsubset⟩
  · rwa [← hsame]
  · exact .inl hall
  · exact .inr (matchesRule_mono hsubset (hrule.resolve_left hsome))

/-- **What narrower options let through** the others let through, too. -/
theorem Narrows.admits (h : o'.Narrows o) (hi : o'.admits i = true) : o.admits i = true := by
  obtain ⟨hsevere, hincluded, hexcluded⟩ := admits_iff.mp hi
  refine admits_iff.mpr ⟨?_, h.includes hincluded, fun hmatches => ?_⟩
  · have hthreshold := h.threshold
    rw [Severity.atLeast, decide_eq_true_eq] at hthreshold hsevere ⊢
    exact Nat.le_trans hthreshold hsevere
  · exact hexcluded (matchesRule_mono h.excluded hmatches)

end LanguageOptions

/-! ## Counting -/

/-- The options let an issue through, if there are any. -/
def isAdmitted (options : Option LanguageOptions) (i : Issue) : Bool := options.all fun o => o.admits i

namespace Normalized

/-- The outcome of a report whose findings have become these issues, or none. -/
def ofFound (options : Option LanguageOptions) (found : List (Option Issue)) : Normalized where
  issues := found.reduceOption.filter (isAdmitted options)
  outsideRoot := found.countP Option.isNone
  filtered := found.reduceOption.countP fun i => !isAdmitted options i

variable {options : Option LanguageOptions}

theorem ofFound_append (found others : List (Option Issue)) :
    ofFound options (found ++ others) = ofFound options found ++ ofFound options others := by
  show (⟨_, _, _⟩ : Normalized) = ⟨_, _, _⟩
  rw [List.reduceOption_append, List.filter_append, List.countP_append, List.countP_append]
  rfl

/-- Every finding is counted once. -/
theorem count_ofFound (found : List (Option Issue)) : (ofFound options found).issues.length +
    (ofFound options found).filtered + (ofFound options found).outsideRoot = found.length := by
  show (found.reduceOption.filter _).length + found.reduceOption.countP _ + found.countP _ = _
  have hissues : found.reduceOption.length = found.reduceOption.countP (isAdmitted options) +
      found.reduceOption.countP fun i => !isAdmitted options i := by
    simpa using List.length_eq_countP_add_countP (isAdmitted options)
  rw [← List.countP_eq_length_filter, ← hissues, List.countP_eq_length_filter]
  exact List.length_eq_reduceOption_length_add_filter_none.symm

end Normalized

namespace Profile

variable {p : Profile} {t : Tree} {options : Option LanguageOptions} {raws : List RawIssue}

theorem normalizeOne_eq (p : Profile) (t : Tree) (options : Option LanguageOptions) (raw : RawIssue) :
    p.normalizeOne t options raw = (p.issue? t raw).map fun found => Normalized.ofFound options [found] := by
  unfold normalizeOne
  cases p.issue? t raw with
  | error b => rfl
  | ok found =>
      cases found with
      | none => rfl
      | some i =>
          show (if isAdmitted options i = true then _ else _) = _
          by_cases hadmitted : isAdmitted options i = true
          · simp [hadmitted, Normalized.ofFound, Except.map, pure, Except.pure]
          · simp [hadmitted, Normalized.ofFound, Except.map, pure, Except.pure]

/-- **A report is normalized finding by finding**: each becomes an issue or none, and then the options are
applied. -/
theorem normalize_eq (p : Profile) (t : Tree) (options : Option LanguageOptions) (raws : List RawIssue) :
    p.normalize t options raws = (raws.mapM (p.issue? t)).map (Normalized.ofFound options) := by
  induction raws with
  | nil => rfl
  | cons raw raws ih =>
      rw [normalize, normalizeOne_eq, ih, List.mapM_cons]
      cases p.issue? t raw with
      | error b => rfl
      | ok first =>
          cases raws.mapM (p.issue? t) with
          | error b => rfl
          | ok found => exact congrArg Except.ok (Normalized.ofFound_append [first] found).symm

/-- **Narrower options let through less of the same.** Under any options, every finding of a report is
counted once, and the issues are those that the findings become, in order, without those that the options
do not let through. Under narrower options the issues are some of these, in order, and the findings outside
the project are the same; whether the report is normalized at all does not depend on the options. -/
theorem normalize_narrows (p : Profile) (t : Tree) (raws : List RawIssue) :
    (∀ options n, p.normalize t options raws = .ok n →
      n.issues.length + n.filtered + n.outsideRoot = raws.length ∧
      ∃ found, raws.mapM (p.issue? t) = .ok found ∧
        n.issues = found.reduceOption.filter (isAdmitted options)) ∧
    ∀ o o' : LanguageOptions, o'.Narrows o →
      ((∃ n, p.normalize t (some o) raws = .ok n) ↔ ∃ n, p.normalize t (some o') raws = .ok n) ∧
      ∀ n n', p.normalize t (some o) raws = .ok n → p.normalize t (some o') raws = .ok n' →
        n'.issues.Sublist n.issues ∧ n'.outsideRoot = n.outsideRoot := by
  constructor
  · intro options n h
    rw [normalize_eq] at h
    obtain ⟨found, hfound, rfl⟩ := map_eq_ok.mp h
    exact ⟨by rw [Normalized.count_ofFound, length_of_mapM hfound], found, hfound, rfl⟩
  · intro o o' hnarrows
    simp only [normalize_eq]
    refine ⟨map_isOk.trans map_isOk.symm, fun n n' h h' => ?_⟩
    obtain ⟨found, hfound, rfl⟩ := map_eq_ok.mp h
    obtain ⟨found', hfound', rfl⟩ := map_eq_ok.mp h'
    -- what the findings become does not depend on the options, which are applied afterwards
    obtain rfl : found = found' := Except.ok.inj (hfound.symm.trans hfound')
    exact ⟨List.monotone_filter_right _ fun i => hnarrows.admits, rfl⟩

/-- Options that ask for one family of checks only, instead of for all, and not for one check of it. -/
theorem normalize_narrows_family :
    let t := Tree.besideOutside [("main.c", .file (.text "x") false)]
    let finding (file rule : String) : RawIssue := { file := some file, rule := some rule, title := "x" }
    let raws := [finding "main.c" "core.A", finding "../main.c" "core.A", finding "main.c" "core.B",
      finding "main.c" "unix.A"]
    let o := LanguageOptions.standard 1
    let o' := { o with severityThreshold := .medium, includeRules := ["core"], excludeRules := ["core.B"] }
    o'.Narrows o ∧ ∃ n n', ofProject.normalize t (some o) raws = .ok n ∧
      ofProject.normalize t (some o') raws = .ok n' ∧ n'.issues.map (·.subcategory) = ["core.A"] ∧
      n'.issues.Sublist n.issues ∧ n'.outsideRoot = 1 ∧ n.outsideRoot = 1 := by
  intro t finding raws o o'
  have hnarrows : o'.Narrows o := ⟨by decide, by decide, .inr ⟨by decide, .inl rfl⟩⟩
  have hnarrow : (ofProject.normalize t (some o') raws).toOption.map
      (fun n => (n.issues.map (·.subcategory), n.outsideRoot)) = some (["core.A"], 1) := by decide +kernel
  obtain ⟨n', hn', hshown⟩ := exists_of_toOption_map hnarrow
  obtain ⟨hissues, hone⟩ := Prod.mk.inj hshown
  obtain ⟨hboth, hpart⟩ := (normalize_narrows ofProject t raws).2 o o' hnarrows
  obtain ⟨n, hn⟩ := hboth.mpr ⟨n', hn'⟩
  obtain ⟨hsublist, houtside⟩ := hpart n n' hn hn'
  exact ⟨hnarrows, n, n', hn, hn', hissues, hsublist, hone, houtside.symm.trans hone⟩

end Profile

end Assay

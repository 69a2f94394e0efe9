import Assay.Analyzer.Gosec
import Assay.Analyzer.Staticcheck
import Assay.Normalize
import Assay.Proofs.Outcome
import Assay.Proofs.Readers.Code

/-!
# Rules on the command line

Rules are chosen twice: the tool is told of the complete codes among them, and the issues that it finds
are filtered by codes and their beginnings. `RuleSelection` says what a command line asks of a tool. The main
result, `hides_iff`, says when a tool is told to leave out a rule that the filter would keep: if and only if
complete codes are included but the rule is none of them, so that only a beginning of its code includes it
(`hides_included_by_beginning`). Excluded rules are never at fault.
-/

namespace Assay

/-- What the arguments of a command say about rules: those that alone are applied, if any are named, and
those that are left out. -/
structure RuleSelection where
  only : Option (List String) := none
  without : List String := []

namespace RuleSelection

/-- The tool is told not to apply the rule. -/
def hides (s : RuleSelection) (rule : String) : Bool :=
  s.only.any (fun rules => !rules.contains rule) || s.without.contains rule

/-- The list that follows a flag in the same argument. -/
def listBehind? (flag : String) (argument : String) : Option (List String) :=
  (Text.dropStart? flag.toList argument.toList).map fun rest => Text.splitOn ',' (String.ofList rest)

/-- The argument after a flag. -/
def argumentAfter? (flag : String) : List String → Option String
  | a :: b :: rest => if a == flag then some b else argumentAfter? flag (b :: rest)
  | _ => none

/-- The rule that an entry takes out. -/
def negated? (entry : String) : Option String :=
  (Text.dropStart? ['-'] entry.toList).map String.ofList

/-- What gosec is asked for. -/
def ofGosec (arguments : List String) : RuleSelection where
  only := arguments.findSome? (listBehind? "-include=")
  without := (arguments.findSome? (listBehind? "-exclude=")).getD []

/-- What staticcheck is asked for: the entries of the list of checks. -/
def ofStaticcheck (arguments : List String) : RuleSelection :=
  let entries := ((argumentAfter? "-checks" arguments).map (Text.splitOn ',')).getD []
  { only := some (entries.filter fun e => (negated? e).isNone)
    without := entries.filterMap negated? }

end RuleSelection

/-! ## Codes -/

namespace Readers

theorem not_mem_of_isGosecCode {s : String} (h : isGosecCode s = true) : ',' ∉ s.toList :=
  not_mem_of_isCode (k := .gosec) h (by decide) (by decide) (by decide)

theorem not_mem_of_isStaticcheckCode {s : String} (h : isStaticcheckCode s = true) :
    ',' ∉ s.toList ∧ '-' ∉ s.toList :=
  ⟨not_mem_of_isCode (k := .staticcheck) h (by decide) (by decide) (by decide),
    not_mem_of_isCode (k := .staticcheck) h (by decide) (by decide) (by decide)⟩

end Readers

/-! ## What the tools are asked for -/

namespace RuleSelection

theorem listBehind?_append {flag : String} {rules : List String} (hne : rules ≠ [])
    (h : ∀ rule ∈ rules, ',' ∉ rule.toList) :
    listBehind? flag (flag ++ Text.join "," rules) = some rules := by
  have hsplit := Text.splitOn_join h hne
  rw [listBehind?, String.toList_append, Text.dropStart?_append, Option.map_some, String.ofList_toList]
  exact congrArg some hsplit

theorem negated?_of_not_mem {entry : String} (h : '-' ∉ entry.toList) : negated? entry = none := by
  unfold negated?
  cases hentry : entry.toList with
  | nil => rfl
  | cons c cs =>
      have hc : ('-' == c) = false := by
        rw [beq_eq_false_iff_ne]
        rintro rfl
        exact h (hentry ▸ List.mem_cons_self)
      simp [Text.dropStart?, hc]

theorem negated?_minus (rule : String) : negated? ("-" ++ rule) = some rule := by
  rw [negated?, String.toList_append]
  show (Text.dropStart? ['-'] (['-'] ++ rule.toList)).map String.ofList = _
  rw [Text.dropStart?_append, Option.map_some, String.ofList_toList]

end RuleSelection

namespace Analyzer

open RuleSelection

/-- The rules that a tool is told of are read back from its flag. -/
theorem findSome?_ruleFlag {flag : String} {rules : List String} (h : ∀ rule ∈ rules, ',' ∉ rule.toList) :
    (ruleFlag flag rules).findSome? (listBehind? flag) = if rules = [] then none else some rules := by
  by_cases hne : rules = []
  · simp [ruleFlag, hne]
  · simp [ruleFlag, hne, listBehind?_append hne h]

/-- The flag with the included rules and the one with the excluded rules are told apart. -/
theorem findSome?_ruleFlag_other (rules : List String) :
    (ruleFlag "-exclude=" rules).findSome? (listBehind? "-include=") = none ∧
      (ruleFlag "-include=" rules).findSome? (listBehind? "-exclude=") = none := by
  have hother (a b rest : String) (h : Text.dropStart? a.toList (b.toList ++ rest.toList) = none) :
      listBehind? a (b ++ rest) = none := by
    rw [listBehind?, String.toList_append, h, Option.map_none]
  by_cases hne : rules = []
  · simp [ruleFlag, hne]
  · simp only [ruleFlag, List.isEmpty_iff, hne, ↓reduceIte, List.findSome?_singleton]
    exact ⟨hother _ _ _ rfl, hother _ _ _ rfl⟩

/-- The arguments of gosec that are about no rules. -/
theorem findSome?_plain {flag : String} (hflag : flag = "-include=" ∨ flag = "-exclude=")
    (confidence : Option String) (generated tests : Bool) (parts : List String) :
    ((confidence.map fun s => "-confidence=" ++ Text.lower s).toList ++
      argumentIf generated "-exclude-generated" ++ argumentIf tests "-tests" ++
      [packagesBelow parts]).findSome? (listBehind? flag) = none := by
  -- none of these arguments begins with one of the flags, not even `-exclude-generated`
  have hconfidence (s : String) : listBehind? flag ("-confidence=" ++ s) = none := by
    rw [listBehind?, String.toList_append]
    rcases hflag with rfl | rfl <;> rfl
  have hgenerated : listBehind? flag "-exclude-generated" = none := by rcases hflag with rfl | rfl <;> rfl
  have htests : listBehind? flag "-tests" = none := by rcases hflag with rfl | rfl <;> rfl
  have hpackages : listBehind? flag (packagesBelow parts) = none := by
    unfold packagesBelow
    split
    · rcases hflag with rfl | rfl <;> rfl
    · rw [listBehind?, String.toList_append, String.toList_append]
      rcases hflag with rfl | rfl <;> rfl
  rw [List.findSome?_eq_none_iff]
  intro argument hargument
  simp only [List.mem_append, Option.mem_toList, Option.map_eq_some_iff, argumentIf,
    List.mem_singleton] at hargument
  rcases hargument with ((⟨s, -, rfl⟩ | h) | h) | rfl
  · exact hconfidence _
  · split at h <;> simp_all
  · split at h <;> simp_all
  · exact hpackages

/-- **Gosec is asked for** the complete codes among the rules. -/
theorem ofGosec_gosecArguments (task : Task) (parts : List String) :
    let included := task.options.includeRules.filter Readers.isGosecCode
    ofGosec (gosecArguments task ++ [packagesBelow parts]) =
      { only := if included = [] then none else some included
        without := task.options.excludeRules.filter Readers.isGosecCode } := by
  intro included
  let excluded := task.options.excludeRules.filter Readers.isGosecCode
  let plain := ((settingText? task.settings "confidence").map fun s => "-confidence=" ++ Text.lower s).toList ++
    argumentIf (task.isOn "exclude_generated") "-exclude-generated" ++
    argumentIf task.options.includeTests "-tests" ++ [packagesBelow parts]
  have hcodes (rules : List String) : ∀ rule ∈ rules.filter Readers.isGosecCode, ',' ∉ rule.toList :=
    fun rule hrule => Readers.not_mem_of_isGosecCode (List.mem_filter.mp hrule).2
  -- the flags with rules stand between others, where each search passes over what is not its own
  have harguments : gosecArguments task ++ [packagesBelow parts] =
      ["-fmt=json", "-sort", "-quiet"] ++ (ruleFlag "-include=" included ++
        (ruleFlag "-exclude=" excluded ++ plain)) := by
    simp [gosecArguments, included, excluded, plain]
  have honly : (gosecArguments task ++ [packagesBelow parts]).findSome? (listBehind? "-include=") =
      if included = [] then none else some included := by
    have hplain : plain.findSome? (listBehind? "-include=") = none := findSome?_plain (.inl rfl) _ _ _ _
    rw [harguments, List.findSome?_append, List.findSome?_append, List.findSome?_append,
      findSome?_ruleFlag (hcodes _), (findSome?_ruleFlag_other _).1, hplain, Option.or_none, Option.or_none]
    rfl
  have hwithout : (gosecArguments task ++ [packagesBelow parts]).findSome? (listBehind? "-exclude=") =
      if excluded = [] then none else some excluded := by
    have hplain : plain.findSome? (listBehind? "-exclude=") = none := findSome?_plain (.inr rfl) _ _ _ _
    rw [harguments, List.findSome?_append, List.findSome?_append, List.findSome?_append,
      findSome?_ruleFlag (hcodes _), (findSome?_ruleFlag_other _).2, hplain, Option.or_none,
      Option.none_or]
    rfl
  rw [ofGosec, honly, hwithout]
  by_cases hexcluded : excluded = []
  · simp [excluded, hexcluded]
  · simp [excluded, hexcluded]

/-- **Staticcheck is asked for** the complete codes among the included rules, if there are any, and told
to leave out those among the excluded ones. -/
theorem ofStaticcheck_staticcheckArguments {task : Task} (hchecks : task.isOn "unused_only" = false)
    (hincluded : task.options.includeRules.filter Readers.isStaticcheckCode ≠ []) (rest : List String) :
    ofStaticcheck (staticcheckArguments task ++ rest) =
      { only := some (task.options.includeRules.filter Readers.isStaticcheckCode)
        without := task.options.excludeRules.filter Readers.isStaticcheckCode } := by
  let included := task.options.includeRules.filter Readers.isStaticcheckCode
  let excluded := task.options.excludeRules.filter Readers.isStaticcheckCode
  have hplain (rules : List String) : ∀ rule ∈ rules.filter Readers.isStaticcheckCode,
      ',' ∉ rule.toList ∧ '-' ∉ rule.toList :=
    fun rule hrule => Readers.not_mem_of_isStaticcheckCode (List.mem_filter.mp hrule).2
  have hentries : staticcheckChecks task = included ++ excluded.map ("-" ++ ·) := by
    simp [staticcheckChecks, hchecks, included, excluded, hincluded]
  -- no code holds a comma, so the list comes apart into its entries again
  have hsplit : Text.splitOn ',' (Text.join "," (staticcheckChecks task)) =
      included ++ excluded.map ("-" ++ ·) := by
    rw [hentries]
    refine @Text.splitOn_join ',' _ (fun entry hentry => ?_) (by simp [included, hincluded])
    rcases List.mem_append.mp hentry with hentry | hentry
    · exact (hplain _ entry hentry).1
    · obtain ⟨rule, hrule, rfl⟩ := List.mem_map.mp hentry
      rw [String.toList_append, List.mem_append, not_or]
      exact ⟨by decide, (hplain _ rule hrule).1⟩
  have hafter : argumentAfter? "-checks" (staticcheckArguments task ++ rest) =
      some (Text.join "," (staticcheckChecks task)) := rfl
  -- no code begins with a minus sign, so the sign tells the excluded ones from the included ones
  have hnone : ∀ rule ∈ included, negated? rule = none :=
    fun rule hrule => negated?_of_not_mem (hplain _ rule hrule).2
  have honly : included.filter (fun e => (negated? e).isNone) = included :=
    List.filter_eq_self.mpr fun rule hrule => by simp [hnone rule hrule]
  have hwithout : included.filterMap negated? = [] :=
    List.filterMap_eq_nil_iff.mpr hnone
  have hminus : negated? ∘ (fun rule => "-" ++ rule) = some := funext negated?_minus
  have hpositive : (excluded.map ("-" ++ ·)).filter (fun e => (negated? e).isNone) = [] := by
    simp [List.filter_map, Function.comp_def, negated?_minus]
  rw [ofStaticcheck, hafter, Option.map_some, Option.getD_some, hsplit]
  simp only [List.filter_append, List.filterMap_append, List.filterMap_map, honly, hwithout, hminus,
    hpositive, List.filterMap_some, List.append_nil, List.nil_append]
  rfl

/-- A tool for Go has one command, which ends in the pattern for packages. -/
theorem packagePlan_eq_ok {task : Task} {arguments : List String} {plan : Plan} :
    packagePlan task arguments = .ok plan ↔ ∃ parts, task.projectRoot.relativeTo? task.toolRoot = some parts ∧
      onePlan task (arguments ++ [packagesBelow parts]) = plan := by
  unfold packagePlan packagePattern
  cases task.projectRoot.relativeTo? task.toolRoot with
  | none => simp
  | some parts => simp

/-- The commands of a tool for Go end in the pattern for packages. -/
theorem arguments_of_packagePlan {task : Task} {arguments : List String} {plan : Plan}
    (h : packagePlan task arguments = .ok plan) :
    ∀ c ∈ plan.invocations, ∃ parts, c.arguments = arguments ++ [packagesBelow parts] := by
  obtain ⟨parts, -, rfl⟩ := packagePlan_eq_ok.mp h
  intro c hc
  obtain rfl := List.mem_singleton.mp hc
  exact ⟨parts, rfl⟩

end Analyzer

/-! ## The two choices -/

/-- What the filter keeps is excluded by none of the rules. -/
theorem LanguageOptions.not_mem_excludeRules {o : LanguageOptions} {i : Issue} (h : o.admits i = true) :
    i.subcategory ∉ o.excludeRules := by
  simp only [admits, Bool.and_eq_true, Bool.not_eq_true'] at h
  intro hmem
  have hmatches : matchesRule i.subcategory o.excludeRules = true :=
    List.any_eq_true.mpr ⟨_, hmem, Text.startsWith_self _⟩
  rw [h.2] at hmatches
  simp at hmatches

namespace RuleSelection

/-- A rule that is not excluded is hidden if it is none of those that are asked for. -/
theorem hides_of_not_mem {only : Option (List String)} {without : List String} {rule : String}
    (h : rule ∉ without) :
    ({ only, without } : RuleSelection).hides rule = true ↔ ∃ rules ∈ only, rule ∉ rules := by
  rw [hides, Bool.or_eq_true, List.contains_iff_mem, or_iff_left h]
  cases only with
  | none => simp
  | some rules => simp

/-- **A tool is told to leave out a rule that the filter keeps** if and only if complete codes are included
and the rule is none of them, so that only a beginning of its code includes it. For staticcheck this is about
runs that are not for unused code alone and include a complete code. -/
theorem hides_iff (t : Files.Tree) (task : Task) (i : Issue) (hadmits : task.options.admits i = true) :
    (Readers.isGosecCode i.subcategory = true → ∀ plan, Analyzer.gosec.plan t task = .ok plan →
      ∀ c ∈ plan.invocations, (ofGosec c.arguments).hides i.subcategory = true ↔
        (∃ other ∈ task.options.includeRules, Readers.isGosecCode other = true) ∧
          i.subcategory ∉ task.options.includeRules) ∧
    (Readers.isStaticcheckCode i.subcategory = true → task.isOn "unused_only" = false →
      (∃ other ∈ task.options.includeRules, Readers.isStaticcheckCode other = true) →
      ∀ plan, Analyzer.staticcheck.plan t task = .ok plan → ∀ c ∈ plan.invocations,
        (ofStaticcheck c.arguments).hides i.subcategory = true ↔
          i.subcategory ∉ task.options.includeRules) := by
  have hexcluded := LanguageOptions.not_mem_excludeRules hadmits
  have hnone {isCode : String → Bool} : task.options.includeRules.filter isCode = [] ↔
      ¬ ∃ other ∈ task.options.includeRules, isCode other = true := by
    simp [List.filter_eq_nil_iff]
  constructor
  · intro hcode plan hplan c hc
    obtain ⟨parts, hparts⟩ := Analyzer.arguments_of_packagePlan hplan c hc
    rw [hparts, Analyzer.ofGosec_gosecArguments,
      hides_of_not_mem fun h => hexcluded (List.mem_filter.mp h).1]
    by_cases hmixed : ∃ other ∈ task.options.includeRules, Readers.isGosecCode other = true
    · simp [hmixed, hcode]
    · simp [hnone.mpr hmixed, hmixed]
  · intro hcode hchecks hmixed plan hplan c hc
    obtain ⟨parts, hparts⟩ := Analyzer.arguments_of_packagePlan hplan c hc
    rw [hparts, Analyzer.ofStaticcheck_staticcheckArguments hchecks fun h => hnone.mp h hmixed,
      hides_of_not_mem fun h => hexcluded (List.mem_filter.mp h).1]
    simp [hcode]

/-- A module whose only rules are these. -/
def moduleTask (includeRules : List String) : Task where
  projectRoot := Files.Path.rooted ["project"]
  toolRoot := Files.Path.rooted ["project"]
  language := .go
  options := { parallelism := 1, includeRules }
  settings := []
  scratch := Files.Path.rooted ["scratch"]

/-- An issue of a rule. -/
def issueOf (rule : String) : Issue := { (default : Issue) with subcategory := rule }

/-- Beginnings alone hide nothing from gosec, and a complete code is kept by staticcheck. -/
theorem hides_iff_unmixed :
    let task := moduleTask ["G2", "SA4006", "SA1"]
    (∃ plan, Analyzer.gosec.plan default task = .ok plan ∧
      ∀ c ∈ plan.invocations, ¬ (ofGosec c.arguments).hides "G201" = true) ∧
    ∃ plan, Analyzer.staticcheck.plan default task = .ok plan ∧
      ∀ c ∈ plan.invocations, ¬ (ofStaticcheck c.arguments).hides "SA4006" = true := by
  intro task
  have hgosec := (hides_iff default task (issueOf "G201") (by decide)).1 (by decide)
  have hstaticcheck := (hides_iff default task (issueOf "SA4006") (by decide)).2 (by decide)
    (by decide) (by decide)
  refine ⟨⟨_, rfl, fun c hc h => ?_⟩, ⟨_, rfl, fun c hc h => ?_⟩⟩
  · obtain ⟨hmixed, -⟩ := (hgosec _ rfl c hc).mp h
    exact absurd hmixed (by decide)
  · exact absurd ((hstaticcheck _ rfl c hc).mp h) (by decide)

/-- **A rule that is included by a beginning of its code is hidden** as soon as a complete code is included
beside it: the filter keeps `G201` and `SA1019`, but neither tool is asked for them. -/
theorem hides_included_by_beginning :
    let task := moduleTask ["G101", "G2", "SA4006", "SA1"]
    task.options.admits (issueOf "G201") = true ∧ task.options.admits (issueOf "SA1019") = true ∧
    (∃ plan, Analyzer.gosec.plan default task = .ok plan ∧
      ∃ c ∈ plan.invocations, (ofGosec c.arguments).hides "G201" = true) ∧
    ∃ plan, Analyzer.staticcheck.plan default task = .ok plan ∧
      ∃ c ∈ plan.invocations, (ofStaticcheck c.arguments).hides "SA1019" = true := by
  intro task
  refine ⟨by decide, by decide, ⟨_, rfl, _, List.mem_singleton.mpr rfl, ?_⟩,
    ⟨_, rfl, _, List.mem_singleton.mpr rfl, ?_⟩⟩
  · decide
  · decide

end RuleSelection

end Assay

import Assay.Proofs.Analyzer.RuleFlags
import Assay.Proofs.Analyzer.Settings
import Assay.Proofs.Analyzer.Sources
import Assay.Proofs.ModuleRoot
import Assay.Proofs.Recognition

/-!
# What tools are started with

The arguments of a command come from fixed flags, codes of rules, values of options, and paths. Before the
command is started each of them is checked for characters that mean something to a shell. The values that
the options take are plain, and a path that stands alone passes whatever its names are, so all arguments
pass but one kind: a directory to include from is written behind its flag, where it is no path any more
(`checkArguments_iff_of_plan`).
-/

namespace Assay

open Files Files.Tree Sandbox

/-! ## Paths -/

namespace Files

/-- A path from a root that can be written. -/
def Path.IsProper (p : Path) : Prop := p.isAbsolute = true ∧ ∀ c ∈ p.parts, IsComponent c

variable {t : Tree} {p : Path}

namespace Path.IsProper

theorem of_stat (hsound : t.IsSound) {given : Path} (hresolve : t.resolve given = .ok p) {n : Node}
    (h : t.stat p = .ok n) : p.IsProper := ⟨t.isAbsolute_of_resolve hresolve, isComponent_of_stat hsound h⟩

/-- What passed the checks is there, so its path can be written. -/
theorem of_checkPath (hsound : t.IsSound) {raw : String} {policy : PathPolicy} {checked : CheckedPath}
    (h : t.checkPath raw policy = .ok checked) (hexists : policy.checkExists = true) :
    checked.canonical.IsProper := by
  obtain ⟨n, hn⟩ := (checkPath_passes h).present hexists
  obtain ⟨-, q, hcanonical, -, -, htarget⟩ := checkPath_eq_ok.mp h
  obtain ⟨_, -, hresolve⟩ := canonical_eq_ok hcanonical
  exact of_stat hsound ((checkTarget_sound htarget).1 ▸ hresolve) hn

/-- **A path that stands alone passes** whatever its names are. -/
theorem passes (h : p.IsProper) {allowed : List String} : checkArgument allowed p.toString = .ok () := by
  refine checkArgument_of_isPathLike (nul_not_mem_toString h.1 h.2) ?_
  obtain ⟨anchor, parts⟩ := p
  cases anchor with
  | here => exact nomatch h.1
  | root | doubleRoot =>
      rw [isPathLike, Text.hasStart, Path.toString_of_isAbsolute rfl]
      simp [Anchor.text, Text.startsWith]

end Path.IsProper

end Files

namespace Analyzer

variable {a : Analyzer} {t : Tree} {task : Task} {allowed : List String}

/-- The root that a tool runs in lies at or above the root of the project. -/
theorem isProper_of_locateRoot (hsound : t.IsSound) {root found : Path} {limits : ResourceLimits}
    (hroot : root.IsProper) (h : a.locateRoot t root limits = .ok found) : found.IsProper := by
  cases hparents : a.searchesParents with
  | true =>
      obtain ⟨here, hhere, habove⟩ := isWithin_of_markerRoot (markerRoot_of_locateRoot hparents h)
      -- the marker lies at or above where the root leads, so no other components come in
      obtain ⟨hanchor, hparts⟩ := Path.isWithin_iff.mp habove
      have hcomponents := t.realPath_forall hsound.forallTargets (hsound.isComponent_startOf root) hroot.2
      rw [← t.resolve_eq_ok hhere] at hcomponents
      refine ⟨?_, fun c hc => hcomponents c (hparts.subset hc)⟩
      rw [Path.isAbsolute, ← hanchor]
      exact t.isAbsolute_of_resolve hhere
  | false =>
      unfold locateRoot at h
      rw [if_neg (by simp [hparents])] at h
      obtain ⟨marked, -, h⟩ := bind_eq_ok.mp h
      split at h
      · obtain rfl := pure_eq_ok.mp h
        exact hroot
      · obtain ⟨sample, -, h⟩ := bind_eq_ok.mp h
        split at h
        · cases h
        · obtain rfl := pure_eq_ok.mp h
          exact hroot

/-- The pattern for packages starts at the working directory. -/
theorem checkArgument_packagesBelow {parts : List String} (h : ∀ c ∈ parts, IsComponent c) :
    checkArgument allowed (packagesBelow parts) = .ok () := by
  unfold packagesBelow
  split
  · exact IsPlain.passes (by decide)
  · next hne =>
    have hparts : parts ≠ [] := by simpa using hne
    -- what begins as a path does may hold marks of a shell, but no NUL
    refine checkArgument_of_isPathLike ?_ ?_
    · rw [Path.relativeText_eq_join hparts, String.toList_append, String.toList_append]
      intro hnul
      rcases List.mem_append.mp hnul with hnul | hnul
      · rcases List.mem_append.mp hnul with hnul | hnul
        · exact absurd hnul (by decide)
        · rcases Text.mem_join hnul with hnul | ⟨c, hc, hnul⟩
          · exact absurd hnul (by decide)
          · exact (h c hc).2 hnul
      · exact absurd hnul (by decide)
    · rw [isPathLike, Text.hasStart, Text.hasStart, String.toList_append, String.toList_append,
        List.append_assoc, Text.startsWith_append, Bool.or_true]

/-! ## Tasks -/

/-- A task that is made for a tool: its settings are accepted, it lies in a directory that some path resolves
to, the tool is given what was discovered there, and no character of its directory for files of the run has
a meaning for a shell. -/
structure Prepares (a : Analyzer) (t : Tree) (task : Task) : Prop where
  settings : a.checkSettings task.settings = .ok ()
  projectRoot : ∃ given, t.resolve given = .ok task.projectRoot
  directory : t.isDirectory task.projectRoot = true
  toolRoot : ∃ limits, a.locateRoot t task.projectRoot limits = .ok task.toolRoot
  files : ∀ p ∈ task.files, ∃ limits d,
    a.collectFiles t task.projectRoot task.options limits = .ok d ∧ p ∈ d.paths
  scratch : IsPlain task.scratch.toString

namespace Prepares

theorem isProper_projectRoot (hsound : t.IsSound) (h : a.Prepares t task) : task.projectRoot.IsProper := by
  obtain ⟨given, hresolve⟩ := h.projectRoot
  obtain ⟨n, hn⟩ := stat_of_test h.directory
  exact .of_stat hsound hresolve hn

theorem isProper_toolRoot (hsound : t.IsSound) (h : a.Prepares t task) : task.toolRoot.IsProper := by
  obtain ⟨limits, hlocate⟩ := h.toolRoot
  exact isProper_of_locateRoot hsound (h.isProper_projectRoot hsound) hlocate

theorem isProper_file (hsound : t.IsSound) (h : a.Prepares t task) {p : Path} (hp : p ∈ task.files) :
    p.IsProper := by
  obtain ⟨limits, d, hd, hp⟩ := h.files p hp
  obtain ⟨resolved, -, c, -, checked, hcheck, rfl⟩ := DiscoverOptions.exists_candidate hd hp
  exact .of_checkPath hsound hcheck rfl

theorem isPlain_scratch (h : a.Prepares t task) {name : String} (hname : IsPlain name) :
    IsPlain (task.scratch.child name).toString := by
  intro c hc
  rcases Path.mem_toString_child hc with rfl | hc | hc
  · decide
  · exact h.scratch c hc
  · exact hname c hc

end Prepares

/-! ## Shapes of arguments -/

section Shapes

variable {P : String → Prop}

theorem forall_mem_argumentIf {condition : Bool} {argument : String} (h : P argument) :
    ∀ x ∈ argumentIf condition argument, P x := by
  unfold argumentIf
  split
  · simpa using h
  · simp

theorem forall_mem_flagged {flag : String} {values : List String} (hflag : P flag)
    (h : ∀ v ∈ values, P v) : ∀ x ∈ flagged flag values, P x := by
  intro x hx
  obtain ⟨v, hv, hx⟩ := List.mem_flatMap.mp hx
  rcases List.mem_pair.mp hx with rfl | rfl
  · exact hflag
  · exact h _ hv

theorem isPlain_of_mem_ruleFlag {flag : String} {rules : List String} (hflag : IsPlain flag)
    (h : ∀ r ∈ rules, IsPlain r) : ∀ x ∈ ruleFlag flag rules, IsPlain x := by
  unfold ruleFlag
  split
  · simp
  · simpa using hflag.append (.join (by decide) h)

theorem mem_of_mem_batches {α : Type} {size fuel : Nat} {items batch : List α} {x : α}
    (h : batch ∈ Assay.batches size fuel items) (hx : x ∈ batch) : x ∈ items := by
  induction fuel generalizing items with
  | zero => simp [Assay.batches] at h
  | succ fuel ih =>
      cases items with
      | nil => simp [Assay.batches] at h
      | cons y items =>
          rw [Assay.batches] at h
          · rcases List.mem_cons.mp h with rfl | h
            · exact List.mem_of_mem_take hx
            · exact List.mem_of_mem_drop (ih h)
          · exact nofun

/-- The commands for batches hold what they share, and sources. -/
theorem forall_mem_batchInvocations {standard : Option Nat} {shared : List String}
    (hshared : ∀ x ∈ shared, P x) (hfiles : ∀ p ∈ task.files, P p.toString) :
    ∀ i ∈ batchInvocations task standard shared, ∀ x ∈ i.arguments, P x := by
  intro i hi
  obtain ⟨batch, hbatch, rfl⟩ := List.mem_map.mp hi
  rw [List.forall_mem_append]
  refine ⟨hshared, fun x hx => ?_⟩
  obtain ⟨p, hp, rfl⟩ := List.mem_map.mp hx
  apply hfiles
  unfold Task.batches at hbatch
  split at hbatch
  · split at hbatch
    · simp at hbatch
    · obtain rfl := List.mem_singleton.mp hbatch
      exact hp
  · exact mem_of_mem_batches hbatch hp

end Shapes

/-! ## Plain arguments -/

theorem isPlain_of_mem_filter {isCode : String → Bool} (h : ∀ s, isCode s = true → IsPlain s)
    {rules : List String} : ∀ r ∈ rules.filter isCode, IsPlain r :=
  fun r hr => h r (List.mem_filter.mp hr).2

theorem isPlain_of_mem_clippyArguments : ∀ x ∈ clippyArguments task, IsPlain x := by
  have hlints (rules : List String) : ∀ r ∈ lintRules rules, IsPlain r :=
    isPlain_of_mem_filter fun s => Readers.isPlain_of_clippyLint?
  simp only [clippyArguments, List.forall_mem_append]
  refine ⟨⟨⟨⟨⟨by decide, ?_⟩, ?_⟩, by decide⟩, ?_⟩, ?_⟩
  · exact forall_mem_argumentIf (by decide)
  · exact forall_mem_argumentIf (by decide)
  · exact forall_mem_flagged (by decide) (hlints _)
  · exact forall_mem_flagged (by decide) (hlints _)

theorem isPlain_of_mem_gosecArguments (hcomplaint : gosecComplaint task.settings = none) :
    ∀ x ∈ gosecArguments task, IsPlain x := by
  have hcodes (rules : List String) : ∀ r ∈ rules.filter Readers.isGosecCode, IsPlain r :=
    isPlain_of_mem_filter fun s => Readers.isPlain_of_isCode (k := .gosec)
  have hlevels : ∀ s ∈ gosecConfidences, IsPlain s := by decide
  simp only [gosecArguments, List.forall_mem_append]
  refine ⟨⟨⟨⟨⟨by decide, ?_⟩, ?_⟩, ?_⟩, ?_⟩, ?_⟩
  · exact isPlain_of_mem_ruleFlag (by decide) (hcodes _)
  · exact isPlain_of_mem_ruleFlag (by decide) (hcodes _)
  -- the confidence is one of a few words, or there would be a complaint about it
  · unfold gosecComplaint at hcomplaint
    cases hlevel : settingText? task.settings "confidence" with
    | none => simp
    | some s =>
        rw [hlevel] at hcomplaint
        dsimp only at hcomplaint
        split at hcomplaint
        · next hmem =>
          have hplain := hlevels _ (List.contains_iff_mem.mp hmem)
          simpa using IsPlain.append (by decide) hplain
        · simp at hcomplaint
  · exact forall_mem_argumentIf (by decide)
  · exact forall_mem_argumentIf (by decide)

theorem isPlain_of_mem_staticcheckArguments : ∀ x ∈ staticcheckArguments task, IsPlain x := by
  have hcodes (rules : List String) : ∀ r ∈ rules.filter Readers.isStaticcheckCode, IsPlain r :=
    isPlain_of_mem_filter fun s => Readers.isPlain_of_isCode (k := .staticcheck)
  have hchecks : ∀ x ∈ staticcheckChecks task, IsPlain x := by
    unfold staticcheckChecks
    split
    · decide
    · rw [List.forall_mem_append]
      refine ⟨?_, fun x hx => ?_⟩
      · split
        · decide
        · exact hcodes _
      · obtain ⟨r, hr, rfl⟩ := List.mem_map.mp hx
        exact .append (by decide) (hcodes _ r hr)
  simp only [staticcheckArguments, List.forall_mem_append, List.forall_mem_cons]
  refine ⟨⟨by decide, by decide, by decide, ?_, nofun⟩, ?_⟩
  · exact .join (by decide) hchecks
  · exact forall_mem_argumentIf (by decide)

theorem isPlain_of_isPylintMessage {s : String} (h : isPylintMessage s = true) : IsPlain s := by
  rcases Bool.or_eq_true _ _ ▸ h with hcode | hname
  · exact Readers.isPlain_of_isCode (k := .pylint) hcode
  · exact Readers.isPlain_of_isMessageName hname

theorem isPlain_of_mem_pylintArguments (hcomplaint : pylintComplaint task.settings = none)
    {configuration : Path} (hconfiguration : IsPlain configuration.toString) :
    ∀ x ∈ pylintArguments task configuration, IsPlain x := by
  simp only [pylintComplaint, Option.or_eq_none_iff] at hcomplaint
  obtain ⟨⟨hdisable, henable⟩, -⟩ := hcomplaint
  simp only [pylintArguments, disabledMessages, List.forall_mem_append, List.forall_mem_cons]
  refine ⟨⟨⟨⟨by decide, hconfiguration, by decide, by decide, by decide,
    nofun⟩, ?_⟩, ?_⟩, ?_⟩
  · refine isPlain_of_mem_ruleFlag (by decide) (List.forall_mem_append.mpr ⟨?_, ?_⟩)
    · exact isPlain_of_mem_settingTexts (fun s => isPlain_of_isPylintMessage) hdisable
    · exact isPlain_of_mem_filter fun s => Readers.isPlain_of_isCode (k := .pylint)
  · exact isPlain_of_mem_ruleFlag (by decide)
      (isPlain_of_mem_settingTexts (fun s => isPlain_of_isPylintMessage) henable)
  · unfold jobsArgument
    split
    · simpa using IsPlain.append (by decide) (isPlain_intText _)
    · simp

theorem isPlain_of_mem_mypyArguments (hcomplaint : mypyComplaint task.settings = none)
    {configuration : Path} (hconfiguration : IsPlain configuration.toString) :
    ∀ x ∈ mypyArguments task configuration, IsPlain x := by
  simp only [mypyComplaint, Option.or_eq_none_iff] at hcomplaint
  obtain ⟨⟨-, hdisable⟩, henable⟩ := hcomplaint
  simp only [mypyArguments, List.forall_mem_append, List.forall_mem_cons]
  refine ⟨⟨⟨⟨by decide, hconfiguration, by decide, by decide, by decide,
    by decide, nofun⟩, ?_⟩, ?_⟩, ?_⟩
  · exact forall_mem_argumentIf (by decide)
  · exact forall_mem_flagged (by decide)
      (isPlain_of_mem_settingTexts (fun s => Readers.isPlain_of_isMessageName) hdisable)
  · exact forall_mem_flagged (by decide)
      (isPlain_of_mem_settingTexts (fun s => Readers.isPlain_of_isMessageName) henable)

/-! ## What is refused -/

/-- The arguments that a task hands on to a program as they are. -/
def handedOn (task : Task) : List String := (settingItems task.settings "args").map Datum.display

/-- The flags for directories to include from whose path holds a shell mark. -/
def markedIncludes (t : Tree) (task : Task) : List String :=
  match includeDirectories t task with
  | .ok directories =>
    (directories.filter fun d => hasShellMark d.toString).map fun d => "-I" ++ d.toString
  | .error _ => []

theorem mem_markedIncludes {directories : List Path} (h : includeDirectories t task = .ok directories)
    {x : String} : x ∈ markedIncludes t task ↔
      ∃ d ∈ directories, hasShellMark d.toString = true ∧ "-I" ++ d.toString = x := by
  simp [markedIncludes, h, and_assoc]

theorem markedIncludes_eq_nil (hsettings : a.checkSettings task.settings = .ok ())
    (hincludes : a.optionKinds.lookup "include_dirs" = none) : markedIncludes t task = [] := by
  rw [markedIncludes, includeDirectories, settingItems_eq_nil hsettings hincludes]
  rfl

/-- Behind its flag, a directory with a shell mark is refused. -/
theorem checkArgument_of_mem_markedIncludes {x : String} (h : x ∈ markedIncludes t task) :
    checkArgument [] x ≠ .ok () := by
  unfold markedIncludes at h
  split at h
  · obtain ⟨d, hd, rfl⟩ := List.mem_map.mp h
    have hmark : hasShellMark d.toString = true := (List.mem_filter.mp hd).2
    intro hpasses
    have hmarked : hasShellMark ("-I" ++ d.toString) = true := by
      rw [hasShellMark, String.toList_append, List.any_append, Bool.or_eq_true]
      exact .inr hmark
    rcases (checkArgument_eq_ok.mp hpasses).2 hmarked with hpath | hallowed
    · -- the flag comes first, so this is no path any more
      have hflag : ("-I" ++ d.toString).toList = '-' :: 'I' :: d.toString.toList := by
        rw [String.toList_append]
        rfl
      simp [isPathLike, Text.hasStart, hflag, Text.startsWith] at hpath
    · simp at hallowed
  · simp at h

/-- Every argument passes but the marked ones, all of which are there. -/
structure PassesBut (p : Policy) (own marked : List String) : Prop where
  includes : ∀ x ∈ marked, x ∈ own
  passes : ∀ x ∈ p.arguments own, checkArgument [] x = .ok () ∨ x ∈ marked

/-- The arguments of a command are those that are handed on, after some that pass but for the marked ones. -/
def IsChecked (a : Analyzer) (t : Tree) (task : Task) (i : Invocation) : Prop :=
  ∃ own, i.arguments = own ++ handedOn task ∧ PassesBut a.policy own (markedIncludes t task)

/-- A tool without directories to include from and without arguments for a program has only arguments that
pass. -/
theorem isChecked_of_passes {i : Invocation} (hsettings : a.checkSettings task.settings = .ok ())
    (hincludes : a.optionKinds.lookup "include_dirs" = none) (hargs : a.optionKinds.lookup "args" = none)
    (hfixed : ∀ x ∈ a.policy.fixedArguments, IsPlain x)
    (h : ∀ x ∈ i.arguments, checkArgument [] x = .ok ()) : a.IsChecked t task i := by
  refine ⟨i.arguments, ?_, ?_⟩
  · rw [handedOn, settingItems_eq_nil hsettings hargs, List.map_nil, List.append_nil]
  · rw [markedIncludes_eq_nil hsettings hincludes]
    refine ⟨nofun, fun x hx => .inl ?_⟩
    rcases List.mem_append.mp hx with hx | hx
    · exact (hfixed x hx).passes
    · exact h x hx

/-! ## Every tool -/

variable {plan : Plan}

theorem clippy_isChecked (h : clippy.Prepares t task) (hplan : clippy.plan t task = .ok plan) :
    ∀ i ∈ plan.invocations, clippy.IsChecked t task i := by
  obtain rfl := Except.ok.inj hplan
  intro i hi
  obtain rfl := List.mem_singleton.mp hi
  exact isChecked_of_passes h.settings rfl rfl (by decide)
    fun x hx => (isPlain_of_mem_clippyArguments x hx).passes

theorem cargoAudit_isChecked (hsound : t.IsSound) (h : cargoAudit.Prepares t task)
    (hplan : cargoAudit.plan t task = .ok plan) :
    ∀ i ∈ plan.invocations, cargoAudit.IsChecked t task i := by
  obtain rfl := Except.ok.inj hplan
  intro i hi
  obtain rfl := List.mem_singleton.mp hi
  refine isChecked_of_passes h.settings rfl rfl (by decide) ?_
  have hlock : (task.toolRoot.child "Cargo.lock").IsProper := by
    obtain ⟨hanchor, hparts⟩ := h.isProper_toolRoot hsound
    refine ⟨hanchor, List.forall_mem_append.mpr ⟨hparts, ?_⟩⟩
    rw [List.forall_mem_singleton]
    exact ⟨by decide, by decide⟩
  have hadvisories : ∀ r ∈ advisoryRules task.options.excludeRules, IsPlain r :=
    isPlain_of_mem_filter fun s => Readers.isPlain_of_isCode (k := .cargoAudit)
  have plain {s : String} (hs : IsPlain s) : checkArgument [] s = .ok () := hs.passes
  simp only [cargoAuditArguments, List.forall_mem_append, List.forall_mem_cons]
  refine ⟨⟨⟨⟨plain (by decide), plain (by decide), hlock.passes, nofun⟩, ?_⟩, ?_⟩, ?_⟩
  · exact forall_mem_argumentIf (plain (by decide))
  · exact forall_mem_argumentIf (plain (by decide))
  · exact forall_mem_flagged (plain (by decide)) fun r hr => plain (hadvisories r hr)

/-- A tool for Go gets plain arguments and the pattern for the packages of the project. -/
theorem isChecked_of_packagePlan {arguments : List String} (hsound : t.IsSound) (h : a.Prepares t task)
    (hincludes : a.optionKinds.lookup "include_dirs" = none) (hargs : a.optionKinds.lookup "args" = none)
    (hfixed : ∀ x ∈ a.policy.fixedArguments, IsPlain x) (hplain : ∀ x ∈ arguments, IsPlain x)
    (hplan : packagePlan task arguments = .ok plan) :
    ∀ i ∈ plan.invocations, a.IsChecked t task i := by
  obtain ⟨parts, hparts, rfl⟩ := packagePlan_eq_ok.mp hplan
  intro i hi
  obtain rfl := List.mem_singleton.mp hi
  refine isChecked_of_passes h.settings hincludes hargs hfixed ?_
  rw [List.forall_mem_append, List.forall_mem_singleton]
  refine ⟨fun x hx => (hplain x hx).passes, checkArgument_packagesBelow fun c hc => ?_⟩
  apply (h.isProper_projectRoot hsound).2
  rw [(Path.relativeTo?_eq_some.mp hparts).2]
  exact List.mem_append_right _ hc

/-- A tool that gets sources in batches has plain arguments before them. -/
theorem isChecked_of_batchInvocations {standard : Option Nat} {shared : List String} (hsound : t.IsSound)
    (h : a.Prepares t task) (hincludes : a.optionKinds.lookup "include_dirs" = none)
    (hargs : a.optionKinds.lookup "args" = none) (hfixed : ∀ x ∈ a.policy.fixedArguments, IsPlain x)
    (hshared : ∀ x ∈ shared, IsPlain x) :
    ∀ i ∈ batchInvocations task standard shared, a.IsChecked t task i := by
  intro i hi
  refine isChecked_of_passes h.settings hincludes hargs hfixed ?_
  exact forall_mem_batchInvocations (fun x hx => (hshared x hx).passes)
    (fun p hp => (h.isProper_file hsound hp).passes) i hi

theorem isProper_of_checkOptionPath (hsound : t.IsSound) {kind : PathKind} {raw : String} {p : Path}
    (h : checkOptionPath t task kind raw = .ok p) : p.IsProper := by
  obtain ⟨checked, hcheck, rfl⟩ := map_eq_ok.mp h
  exact .of_checkPath hsound hcheck rfl

theorem clang_plan_eq_ok : clang.plan t task = .ok plan ↔
    ∃ directories, includeDirectories t task = .ok directories ∧
      ⟨task.files.mapIdx (clangInvocation task (clangArguments task directories)), []⟩ = plan := by
  show clangPlan t task = _ ↔ _
  unfold clangPlan
  cases includeDirectories t task <;> simp

/-- A directory to include from passes behind its flag, or is one of the marked ones. -/
theorem checkArgument_includeFlag (hsound : t.IsSound) {directories : List Path}
    (h : includeDirectories t task = .ok directories) {d : Path} (hd : d ∈ directories) :
    checkArgument [] ("-I" ++ d.toString) = .ok () ∨ "-I" ++ d.toString ∈ markedIncludes t task := by
  obtain ⟨raw, -, hraw⟩ := exists_of_mem_mapM h d hd
  have hpasses : checkArgument [] d.toString = .ok () := (isProper_of_checkOptionPath hsound hraw).passes
  by_cases hmark : hasShellMark d.toString = true
  · exact .inr ((mem_markedIncludes h).mpr ⟨d, hd, hmark, rfl⟩)
  · have hplain := isPlain_iff.mpr ⟨(checkArgument_eq_ok.mp hpasses).1, by simpa using hmark⟩
    exact .inl (IsPlain.append (by decide) hplain).passes

theorem isPlain_reportName (index : Nat) : IsPlain (reportName index) := by
  refine .append (.append ?_ (isPlain_natText index)) (by decide)
  intro c hc
  rw [String.toList_ofList] at hc
  rw [List.eq_of_mem_replicate hc]
  decide

theorem isPlain_standardFor (h : clangComplaint task.settings = none) (source : Path) :
    IsPlain (standardFor task source) := by
  simp only [clangComplaint, Option.or_eq_none_iff] at h
  obtain ⟨⟨hc, hcpp⟩, -⟩ := h
  unfold standardFor
  split
  · exact isPlain_of_standardComplaint hcpp (by decide)
  · exact isPlain_of_standardComplaint hc (by decide)

theorem isPlain_of_mem_defines (h : clangComplaint settings = none) :
    ∀ d ∈ settingItems settings "defines", IsPlain d.display := by
  simp only [clangComplaint, Option.or_eq_none_iff, defineComplaint, Option.map_eq_none_iff,
    List.find?_eq_none] at h
  exact fun d hd => isPlain_of_isDefine (by simpa using h.2 d hd)

theorem clang_isChecked (hsound : t.IsSound) (h : clang.Prepares t task)
    (hplan : clang.plan t task = .ok plan) : ∀ i ∈ plan.invocations, clang.IsChecked t task i := by
  have hcomplaint : clangComplaint task.settings = none := (checkSettings_eq_ok.mp h.settings).2
  obtain ⟨directories, hdirectories, rfl⟩ := clang_plan_eq_ok.mp hplan
  intro i hi
  obtain ⟨index, hindex, rfl⟩ := List.mem_mapIdx.mp hi
  have hsource : task.files[index].IsProper := h.isProper_file hsound (List.getElem_mem hindex)
  have plain {s : String} (hs : IsPlain s) :
      checkArgument [] s = .ok () ∨ s ∈ markedIncludes t task := .inl hs.passes
  refine ⟨(clangInvocation task (clangArguments task directories) index task.files[index]).arguments,
    ?_, ?_, ?_⟩
  · rw [handedOn, settingItems_eq_nil h.settings rfl, List.map_nil, List.append_nil]
  · intro x hx
    obtain ⟨d, hd, -, rfl⟩ := (mem_markedIncludes hdirectories).mp hx
    simp only [clangInvocation, clangArguments, List.mem_append]
    exact .inl (.inl (.inr (List.mem_map_of_mem hd)))
  · show ∀ x ∈ ([] : List String) ++ _, _
    simp only [clangInvocation, clangArguments, List.forall_mem_append, List.forall_mem_cons,
      List.nil_append]
    -- fixed flags, directories, definitions, then what belongs to the one source
    refine ⟨⟨⟨⟨plain (by decide), plain (by decide), plain (by decide),
      plain (by decide), plain (by decide), nofun⟩, ?_⟩, ?_⟩,
      plain (.append (by decide) (isPlain_standardFor hcomplaint _)), plain (by decide),
      plain (h.isPlain_scratch (isPlain_reportName index)), .inl hsource.passes, nofun⟩
    · intro x hx
      obtain ⟨d, hd, rfl⟩ := List.mem_map.mp hx
      exact checkArgument_includeFlag hsound hdirectories hd
    · intro x hx
      obtain ⟨d, hd, rfl⟩ := List.mem_map.mp hx
      exact plain (.append (by decide) (isPlain_of_mem_defines hcomplaint d hd))

theorem valgrind_isChecked (hsound : t.IsSound) (h : valgrind.Prepares t task)
    (hplan : valgrind.plan t task = .ok plan) :
    ∀ i ∈ plan.invocations, valgrind.IsChecked t task i := by
  obtain ⟨program, hprogram, rfl⟩ := map_eq_ok.mp hplan
  intro i hi
  obtain rfl := List.mem_singleton.mp hi
  have hproper : program.IsProper := by
    -- the program is what the path among the options was checked to be
    unfold programOf at hprogram
    split at hprogram
    · simp at hprogram
    · split at hprogram
      · simp at hprogram
      · next found hfound =>
        split at hprogram
        · obtain rfl := Except.ok.inj hprogram
          exact isProper_of_checkOptionPath hsound hfound
        · simp at hprogram
  have plain {s : String} (hs : IsPlain s) :
      checkArgument [] s = .ok () ∨ s ∈ markedIncludes t task := .inl hs.passes
  refine ⟨_, rfl, by rw [markedIncludes_eq_nil h.settings rfl]; exact nofun, ?_⟩
  show ∀ x ∈ ([] : List String) ++ _, _
  simp only [List.nil_append, List.forall_mem_cons]
  refine ⟨plain (by decide), plain (by decide), plain (by decide),
    plain (by decide), plain (by decide), plain (by decide), plain ?_,
    .inl hproper.passes, nofun⟩
  exact .append (by decide) (h.isPlain_scratch (by decide))

/-! ## All tools -/

/-- **What a tool is started with passes**, except for directories to include from. Whatever options are
accepted, whatever rules are included or excluded and whatever the names of directories and files are: the
arguments of a command, those handed on to a program apart, pass the check one by one unless they are the
flag for a directory whose path holds a shell mark. So the command is refused exactly if there is such a
directory. -/
theorem checkArguments_iff_of_plan (hsound : t.IsSound) (ha : a ∈ standard) (h : a.Prepares t task)
    (hplan : a.plan t task = .ok plan) :
    ∀ i ∈ plan.invocations, ∃ own, i.arguments = own ++ handedOn task ∧
      (∀ x ∈ a.policy.arguments own,
        checkArgument a.policy.allowedArguments x = .ok () ↔ x ∉ markedIncludes t task) ∧
      (checkArguments a.policy.allowedArguments (a.policy.arguments own) = .ok () ↔
        markedIncludes t task = []) := by
  have hallowed : a.policy.allowedArguments = [] := by
    have hall : ∀ b ∈ standard, b.policy.allowedArguments = [] := by decide
    exact hall a ha
  intro i hi
  obtain ⟨own, hown, hbut⟩ : a.IsChecked t task i := by
    simp only [standard, List.mem_cons, List.not_mem_nil, or_false] at ha
    rcases ha with rfl | rfl | rfl | rfl | rfl | rfl | rfl | rfl
    case _ => exact clippy_isChecked h hplan i hi
    case _ => exact cargoAudit_isChecked hsound h hplan i hi
    case _ =>
      have hcomplaint : gosecComplaint task.settings = none := (checkSettings_eq_ok.mp h.settings).2
      exact isChecked_of_packagePlan hsound h rfl rfl (by decide)
        (isPlain_of_mem_gosecArguments hcomplaint) hplan i hi
    case _ =>
      exact isChecked_of_packagePlan hsound h rfl rfl (by decide)
        isPlain_of_mem_staticcheckArguments hplan i hi
    case _ => exact clang_isChecked hsound h hplan i hi
    case _ => exact valgrind_isChecked hsound h hplan i hi
    case _ =>
      obtain rfl := Except.ok.inj hplan
      exact isChecked_of_batchInvocations hsound h rfl rfl (by decide)
        (isPlain_of_mem_pylintArguments (checkSettings_eq_ok.mp h.settings).2
          (h.isPlain_scratch (by decide))) i hi
    case _ =>
      obtain rfl := Except.ok.inj hplan
      exact isChecked_of_batchInvocations hsound h rfl rfl (by decide)
        (isPlain_of_mem_mypyArguments (checkSettings_eq_ok.mp h.settings).2
          (h.isPlain_scratch (by decide))) i hi
  rw [hallowed]
  -- what is marked is refused, and nothing else is
  have hpasses : ∀ x ∈ a.policy.arguments own,
      checkArgument [] x = .ok () ↔ x ∉ markedIncludes t task := by
    intro x hx
    refine ⟨fun hok hmarked => checkArgument_of_mem_markedIncludes hmarked hok, fun hmarked => ?_⟩
    exact (hbut.passes x hx).resolve_right hmarked
  refine ⟨own, hown, hpasses, ?_⟩
  rw [checkArguments_eq_ok]
  constructor
  · intro hall
    refine List.eq_nil_iff_forall_not_mem.mpr fun x hx => ?_
    have hmem : x ∈ a.policy.arguments own := List.mem_append_right _ (hbut.includes x hx)
    exact (hpasses x hmem).mp (hall x hmem) hx
  · intro hnone x hx
    exact (hpasses x hx).mpr (hnone ▸ List.not_mem_nil)

/-- A project of an empty directory and a source. -/
def projectWith (directory source : String) : Tree :=
  besideOutside [(directory, .directory []), (source, .file (.text "int x;\n") false)]

/-- The source of such a project. -/
def sourceAt (source : String) : Path := Path.rooted ["project", source]

/-- The analysis of such a project with the directory to include from. -/
def includeTask (directory source : String) : Task where
  projectRoot := DiscoverOptions.projectRoot
  toolRoot := DiscoverOptions.projectRoot
  language := .c
  options := .standard 1
  settings := [("include_dirs", .list [.text directory]), ("defines", .list [.text "LIMIT=1"])]
  scratch := Path.rooted ["scratch"]
  files := [sourceAt source]

theorem candidates_projectWith {o : DiscoverOptions} {directory source : String}
    (hselects : o.selects DiscoverOptions.projectRoot (sourceAt source) = true) :
    o.candidates (projectWith directory source) DiscoverOptions.projectRoot = [sourceAt source] := by
  have hfiles (rule : WalkRule) :
      (projectWith directory source).files rule DiscoverOptions.projectRoot = [sourceAt source] := by
    rw [files_of_shallow rfl (by simp [Node.isDirectory])]
    simp [fileNames, sortNames, countsAsDirectory]
    rfl
  unfold DiscoverOptions.candidates
  rw [hfiles, List.filter_cons_of_pos hselects]
  rfl

/-- Such a project is prepared for Clang if its source is discovered. -/
theorem clang_prepares {directory source : String}
    (hsettings : clang.checkSettings (includeTask directory source).settings = .ok ())
    (hresolve : (projectWith directory source).resolve DiscoverOptions.projectRoot =
      .ok DiscoverOptions.projectRoot)
    (hselects : (clang.sampleOptions {}).selects DiscoverOptions.projectRoot (sourceAt source) = true)
    (hcheck : (projectWith directory source).checkPath (sourceAt source).toString
      ((clang.sampleOptions {}).policy DiscoverOptions.projectRoot) = .ok ⟨sourceAt source, 7⟩) :
    clang.Prepares (projectWith directory source) (includeTask directory source) := by
  have hroot := resolveOrFail_eq_ok.mpr hresolve
  have hcollect : ∃ d, clang.collectFiles (projectWith directory source) DiscoverOptions.projectRoot
      (.standard 1) {} = .ok d ∧ d.paths = [sourceAt source] :=
    DiscoverOptions.discover_of_candidate (by decide) hroot (candidates_projectWith hselects) hcheck
      (by decide)
  have hscratch : IsPlain (Path.rooted ["scratch"]).toString := by decide
  refine ⟨hsettings, ⟨_, hresolve⟩, rfl, ⟨{}, ?_⟩, ?_, hscratch⟩
  · obtain ⟨sample, hsample, hpaths⟩ : ∃ d, (clang.sampleOptions {}).discover
        (projectWith directory source) DiscoverOptions.projectRoot = .ok d ∧ d.paths = [sourceAt source] :=
      DiscoverOptions.discover_of_candidate (by decide) hroot (candidates_projectWith hselects) hcheck
        (by decide)
    have hunmarked : markedBy (projectWith directory source) DiscoverOptions.projectRoot clang.markers =
        .ok false := rfl
    show clang.locateRoot (projectWith directory source) DiscoverOptions.projectRoot {} =
      .ok DiscoverOptions.projectRoot
    rw [locateRoot_of_unmarked rfl hunmarked, hsample]
    show (if sample.paths.isEmpty then _ else _) = _
    rw [hpaths]
    rfl
  · intro p hp
    obtain rfl := List.mem_singleton.mp hp
    obtain ⟨d, hd, hpaths⟩ := hcollect
    exact ⟨{}, d, hd, by rw [hpaths]; exact List.mem_singleton_self _⟩

/-- The name of a source may hold any mark: all arguments for it pass. -/
theorem checkArguments_iff_of_plan_marked_source :
    let t := projectWith "inc" "a;$(b).c"
    let task := includeTask "inc" "a;$(b).c"
    ∃ plan, clang.plan t task = .ok plan ∧ plan.invocations ≠ [] ∧ ∀ i ∈ plan.invocations,
      checkArguments clang.policy.allowedArguments (clang.policy.arguments i.arguments) = .ok () := by
  intro t task
  have hsound : t.IsSound := ⟨by decide +kernel, by decide +kernel, by decide, by decide⟩
  have hprepares : clang.Prepares t task :=
    clang_prepares (by rfl) (by decide +kernel) (by decide +kernel) (by decide +kernel)
  have hdirectories : includeDirectories t task = .ok [Path.rooted ["project", "inc"]] := by
    decide +kernel
  have hplan := clang_plan_eq_ok.mpr ⟨_, hdirectories, rfl⟩
  refine ⟨_, hplan, by simp [task, includeTask], fun i hi => ?_⟩
  obtain ⟨own, hown, -, hstarts⟩ :=
    checkArguments_iff_of_plan hsound (by simp [standard]) hprepares hplan i hi
  rw [hown, show handedOn task = [] from rfl, List.append_nil]
  refine hstarts.mpr ?_
  rw [markedIncludes, hdirectories]
  decide +kernel

/-- **A marked directory to include from is refused.** It lies in the project and its option is accepted,
but the command is not started, although the same path would pass by itself. -/
theorem clang_refuses_marked_directory :
    let t := projectWith "inc(1)" "main.c"
    let task := includeTask "inc(1)" "main.c"
    t.IsSound ∧ clang.Prepares t task ∧ handedOn task = [] ∧
    (∃ plan, clang.plan t task = .ok plan ∧ ∃ i ∈ plan.invocations,
      "-I/project/inc(1)" ∈ i.arguments ∧
      checkArgument clang.policy.allowedArguments "-I/project/inc(1)" =
        .error (.shellMark "-I/project/inc(1)")) ∧
    checkArgument clang.policy.allowedArguments "/project/inc(1)" = .ok () := by
  intro t task
  have hsound : t.IsSound := ⟨by decide +kernel, by decide +kernel, by decide, by decide⟩
  have hprepares : clang.Prepares t task :=
    clang_prepares (by rfl) (by decide +kernel) (by decide +kernel) (by decide +kernel)
  have hdirectories : includeDirectories t task = .ok [Path.rooted ["project", "inc(1)"]] := by
    decide +kernel
  have hplan := clang_plan_eq_ok.mpr ⟨_, hdirectories, rfl⟩
  refine ⟨hsound, hprepares, rfl, ⟨_, hplan, _, List.mem_cons_self, ?_, by decide +kernel⟩,
    by decide +kernel⟩
  have hflag : "-I" ++ (Path.rooted ["project", "inc(1)"]).toString = "-I/project/inc(1)" := by
    decide +kernel
  simp [clangInvocation, clangArguments, hflag]

end Analyzer

end Assay

import Assay.Analyzer.Operands
import Assay.Proofs.Analyzer.Arguments
import Assay.Proofs.Datum
import Assay.Proofs.Files.Decision

/-!
# Options that are accepted can be worked with

The check of options takes values of any kind apart, and it agrees with the complaints about them
(`agrees_checkOptions`): it breaks off only where a complaint shows a value that cannot be written out. Every
operation that a tool puts its options to suits the values that it accepts (`operate_of_accepted`). What is
left are paths: a plan breaks off exactly where one of them cannot be written out or cannot be looked at
(`plan_of_accepted`).
-/

namespace Assay

open Files

namespace Analyzer

variable {a : Analyzer} {settings : ToolSettings} {name : String} {d : Datum}

/-! ## Values of the right kind -/

/-- Every option is known and its value is of the right kind. -/
def Kinds (a : Analyzer) (settings : ToolSettings) : Prop := ∀ option ∈ settings, a.kindComplaint option = none

theorem Kinds.admits (h : a.Kinds settings) {kind : OptionKind} (hname : a.optionKinds.lookup name = some kind)
    (hd : Datum.lookup name settings = some d) : kind.admits d = true := by
  have hnone := h _ (Datum.mem_of_lookup hd)
  rw [kindComplaint, hname] at hnone
  dsimp only at hnone
  split at hnone
  · assumption
  · cases hnone

/-- A text option that is given is a text. -/
theorem Kinds.given?_eq (h : a.Kinds settings) (hname : a.optionKinds.lookup name = some .text) :
    given? settings name = (settingText? settings name).map .text := by
  unfold given? settingText?
  cases hd : Datum.lookup name settings with
  | none => rfl
  | some d =>
      have hkind := h.admits hname hd
      cases d with
      | text s => rfl
      | _ => exact nomatch hkind

/-- The parts of a list option are its items. -/
theorem Kinds.partsOf_eq (h : a.Kinds settings) (hname : a.optionKinds.lookup name = some .list) :
    partsOf settings name = .ok (settingItems settings name) := by
  unfold partsOf settingItems
  cases hd : Datum.lookup name settings with
  | none => rfl
  | some d =>
      have hkind := h.admits hname hd
      cases d with
      | list items => rfl
      | _ => exact nomatch hkind

/-- What stands in a list is as long as what holds it. -/
theorem fits_of_mem_settingItems (h : ∀ option ∈ settings, option.2.Fits) :
    ∀ d ∈ settingItems settings name, d.Fits := by
  intro d hd
  unfold settingItems at hd
  split at hd
  · next items hlookup => exact Datum.fits_list.mp (h _ (Datum.mem_of_lookup hlookup)) d hd
  · exact absurd hd List.not_mem_nil

/-! ## Checks -/

/-- How the check of options goes with the complaint about them: without a complaint it passes, and with one
it refuses them, unless some value cannot be written out. -/
inductive Agrees (a : Analyzer) (settings : ToolSettings) : Except Failure Unit → Option String → Prop where
  | passes : Agrees a settings (.ok ()) none
  | refuses (complaint : String) : Agrees a settings (.error (a.refusal complaint)) (some complaint)
  | unwritten (complaint : String) (h : ¬ ∀ option ∈ settings, option.2.Fits) :
      Agrees a settings (.error (.breach Decimal.overlong)) (some complaint)

namespace Agrees

/-- The second check is made if the first one passes. -/
theorem andThen {x y : Except Failure Unit} {first second : Option String} (hx : a.Agrees settings x first)
    (hy : a.Agrees settings y second) : a.Agrees settings (do x; y) (first.or second) := by
  cases hx with
  | passes => rwa [Option.none_or]
  | refuses complaint => exact .refuses complaint
  | unwritten complaint h => exact .unwritten complaint h

/-- Nothing is checked behind a complaint. -/
theorem stop {x : Except Failure Unit} {f : Unit → Except Failure Unit} {complaint : String}
    (h : a.Agrees settings x (some complaint)) : a.Agrees settings (x >>= f) (some complaint) := by
  cases h with
  | refuses => exact .refuses complaint
  | unwritten _ h => exact .unwritten complaint h

/-- A value is refused with a complaint that shows it, if it can be written out. -/
theorem refuse (complaint : String → String) (h : (∀ option ∈ settings, option.2.Fits) → d.Fits) :
    a.Agrees settings (a.refuse complaint d) (some (complaint d.shown)) := by
  unfold Analyzer.refuse
  by_cases hd : d.Fits
  · rw [Datum.written_of_fits hd]
    exact .refuses _
  · rw [Datum.written_of_not_fits hd]
    exact .unwritten _ fun hall => hd (h hall)

/-- A text option is checked by a test that all texts admit. -/
theorem checkGiven (hkinds : a.Kinds settings) (hname : a.optionKinds.lookup name = some .text)
    (complaint : String → String) {admits : Datum → Except Breach Bool} {holds : String → Bool}
    (hadmits : ∀ s, admits (.text s) = .ok (holds s)) :
    a.Agrees settings (Analyzer.checkGiven settings name admits (a.refuse complaint))
      (match settingText? settings name with
      | some s => if holds s then none else some (complaint (Text.quoted s))
      | none => none) := by
  unfold Analyzer.checkGiven
  rw [hkinds.given?_eq hname]
  cases settingText? settings name with
  | none => exact .passes
  | some s =>
      simp only [Option.map_some, hadmits]
      show a.Agrees settings (if holds s = true then _ else _) _
      split
      · exact .passes
      · exact refuse complaint (d := .text s) fun _ => Datum.fits_of_no_wholes rfl

/-- The items of a list option are checked one by one, up to the first one that is not admitted. -/
theorem checkParts (hkinds : a.Kinds settings) (hname : a.optionKinds.lookup name = some .list)
    (complaint : Datum → String) {admits : Datum → Bool} {otherwise : Datum → Except Failure Unit}
    (hother : ∀ d ∈ settingItems settings name, a.Agrees settings (otherwise d) (some (complaint d))) :
    a.Agrees settings (Analyzer.checkParts settings name admits otherwise)
      (((settingItems settings name).find? fun d => !admits d).map complaint) := by
  unfold Analyzer.checkParts
  rw [hkinds.partsOf_eq hname]
  show a.Agrees settings (forM (settingItems settings name) _) _
  generalize settingItems settings name = items at hother
  induction items with
  | nil => exact .passes
  | cons d rest ih =>
      obtain ⟨hd, hrest⟩ := List.forall_mem_cons.mp hother
      rw [List.forM_cons, List.find?_cons]
      -- the complaint is about the item at which the run stops
      cases admits d with
      | true => exact ih hrest
      | false => exact hd.stop

theorem eq_ok_iff {x : Except Failure Unit} {complaint : Option String} (h : a.Agrees settings x complaint) :
    x = .ok () ↔ complaint = none := by
  cases h <;> simp

theorem refusal_or_overlong {x : Except Failure Unit} {complaint : Option String} {failure : Failure}
    (h : a.Agrees settings x complaint) (hx : x = .error failure) :
    (∃ text, failure = a.refusal text) ∨
      failure = .breach Decimal.overlong ∧ ¬ ∀ option ∈ settings, option.2.Fits := by
  cases h with
  | passes => exact nomatch hx
  | refuses text => exact .inl ⟨text, (Except.error.inj hx).symm⟩
  | unwritten _ hlong => exact .inr ⟨(Except.error.inj hx).symm, hlong⟩

/-- With values that can be written out, the check is the one by the complaint. -/
theorem eq_of_fits {x : Except Failure Unit} (h : a.Agrees settings x (a.settingsComplaint settings))
    (hfits : ∀ option ∈ settings, option.2.Fits) : x = (a.checkSettings settings).mapError .problem := by
  unfold checkSettings
  generalize a.settingsComplaint settings = complaint at h
  cases h with
  | passes => rfl
  | refuses text => rfl
  | unwritten _ hlong => exact absurd hfits hlong

end Agrees

theorem checkSettings_iff : a.checkSettings settings = .ok () ↔ a.settingsComplaint settings = none := by
  unfold checkSettings
  cases a.settingsComplaint settings <;> simp

theorem agrees_gosec (h : gosec.Kinds settings) :
    gosec.Agrees settings (gosecUsage.check settings) (gosecComplaint settings) :=
  .checkGiven h rfl (fun shown => "invalid confidence " ++ shown) fun _ => rfl

theorem agrees_standard (h : clang.Kinds settings) (hname : clang.optionKinds.lookup name = some .text) :
    clang.Agrees settings (checkStandard settings name) (standardComplaint settings name) := by
  have hadmits (s : String) : languageStandards.any (fun r => Datum.same (.text r) (.text s)) =
      languageStandards.contains s := by
    simp only [Datum.same]
    exact List.any_beq'
  exact .checkGiven h hname (fun shown => "unsupported " ++ name ++ " " ++ shown)
    fun s => congrArg Except.ok (hadmits s)

theorem agrees_clang (h : clang.Kinds settings) :
    clang.Agrees settings (clangUsage.check settings) (clangComplaint settings) := by
  unfold clangComplaint
  rw [Option.or_assoc]
  refine (agrees_standard h rfl).andThen ((agrees_standard h rfl).andThen ?_)
  exact .checkParts h rfl (fun d => "invalid define " ++ d.shown)
    fun d hd => .refuse (fun shown => "invalid define " ++ shown)
      fun hfits => fits_of_mem_settingItems hfits d hd

theorem agrees_valgrind (h : valgrind.Kinds settings) :
    valgrind.Agrees settings (valgrindUsage.check settings) (valgrindComplaint settings) := by
  -- the complaint is made about all items at once, the check meets them one by one
  have hcomplaint : valgrindComplaint settings =
      ((settingItems settings "args").find? fun d => !isText d).map fun _ => "args must be strings" := by
    show (if (settingItems settings "args").all isText then none else _) = _
    cases hfirst : (settingItems settings "args").find? fun d => !isText d with
    | none =>
        have hall := List.find?_eq_none.mp hfirst
        rw [if_pos (List.all_eq_true.mpr fun d hd => by simpa using hall d hd)]
        rfl
    | some d =>
        have hwrong := List.find?_some hfirst
        rw [if_neg fun hall => ?_]
        · rfl
        · rw [List.all_eq_true.mp hall d (List.mem_of_find?_eq_some hfirst)] at hwrong
          exact nomatch hwrong
  rw [hcomplaint]
  exact .checkParts h rfl (fun _ => "args must be strings") fun d _ => .refuses _

theorem agrees_entries {holds : String → Bool} (h : a.Kinds settings)
    (hname : a.optionKinds.lookup name = some .list) :
    a.Agrees settings (checkParts settings name (isTextWith holds) (a.entryRefusal name))
      (entryComplaint settings holds name) := by
  refine .checkParts h hname (fun d => "invalid entry " ++ d.shown ++ " in " ++ Text.quoted name)
    fun d hd => ?_
  exact .refuse (fun shown => "invalid entry " ++ shown ++ " in " ++ Text.quoted name)
    fun hfits => fits_of_mem_settingItems hfits d hd

theorem agrees_jobs (h : pylint.Kinds settings) :
    pylint.Agrees settings (checkJobs settings) (jobsComplaint settings) := by
  unfold checkJobs checkGiven given? jobsComplaint
  cases hd : Datum.lookup "jobs" settings with
  | none => exact .passes
  | some d =>
      have hwhole : pylint.optionKinds.lookup "jobs" = some .whole := rfl
      have hkind := h.admits hwhole hd
      cases d with
      | int n =>
          -- on whole numbers the comparisons of numbers are those of integers
          have hbounds : ((Number.whole 0).atMost (.whole n) && (Number.whole n).atMost (.whole 64)) =
              (decide (0 ≤ n) && decide (n ≤ 64)) := by
            rw [Number.atMost_whole, Number.atMost_whole]
          show pylint.Agrees settings (if (_ && _) = true then _ else _) _
          rw [hbounds]
          dsimp only
          split
          · exact .passes
          · exact .refuses _
      | _ => exact nomatch hkind

theorem agrees_pylint (h : pylint.Kinds settings) :
    pylint.Agrees settings (pylintUsage.check settings) (pylintComplaint settings) := by
  unfold pylintComplaint
  rw [Option.or_assoc]
  exact (agrees_entries h rfl).andThen ((agrees_entries h rfl).andThen (agrees_jobs h))

theorem agrees_mypy (h : mypy.Kinds settings) :
    mypy.Agrees settings (mypyUsage.check settings) (mypyComplaint settings) := by
  unfold mypyComplaint
  rw [Option.or_assoc]
  refine .andThen ?_ ((agrees_entries h rfl).andThen (agrees_entries h rfl))
  exact .checkGiven h rfl (fun shown => "invalid python_version " ++ shown) fun _ => rfl

/-- **The checks of all tools agree with the complaints** about names, kinds and values. -/
theorem agrees_checkOptions {u : Usage} (hu : u ∈ usages) (settings : ToolSettings) :
    u.analyzer.Agrees settings (u.checkOptions settings) (u.analyzer.settingsComplaint settings) := by
  unfold Usage.checkOptions settingsComplaint
  cases hfirst : settings.findSome? u.analyzer.kindComplaint with
  | some complaint => exact .refuses complaint
  | none =>
      -- from here on every value is of the kind that its option asks for
      have hkinds : u.analyzer.Kinds settings := List.findSome?_eq_none_iff.mp hfirst
      rw [Option.none_or]
      simp only [usages, List.mem_cons, List.not_mem_nil, or_false] at hu
      rcases hu with rfl | rfl | rfl | rfl | rfl | rfl | rfl | rfl
      case _ => exact .passes
      case _ => exact .passes
      case _ => exact agrees_gosec hkinds
      case _ => exact .passes
      case _ => exact agrees_clang hkinds
      case _ => exact agrees_valgrind hkinds
      case _ => exact agrees_pylint hkinds
      case _ => exact agrees_mypy hkinds

/-! ## What the values are put to -/

/-- The operation can be carried out on the value of its option, if that is given. -/
def Meets (settings : ToolSettings) (o : String × Operation) : Prop :=
  ∀ d, given? settings o.1 = some d → o.2.meet d = .ok ()

theorem operate_eq_ok {operations : List (String × Operation)} (h : ∀ o ∈ operations, Meets settings o) :
    operate operations settings = .ok () := by
  apply forM_eq_ok.mpr
  intro o ho
  dsimp only
  cases hgiven : given? settings o.1 with
  | none => rfl
  | some d => exact h o ho d hgiven

theorem lookup_of_given? (h : given? settings name = some d) : Datum.lookup name settings = some d := by
  unfold given? at h
  split at h
  · exact nomatch h
  · exact nomatch h
  · next hlookup => rw [hlookup, h]

theorem meets_test : Meets settings (name, .test) := fun _ _ => rfl

theorem Kinds.meets_text (h : a.Kinds settings) (hname : a.optionKinds.lookup name = some .text)
    {operation : Operation} (hmeet : ∀ s, operation.meet (.text s) = .ok ()) :
    Meets settings (name, operation) := by
  intro d hd
  have hkind := h.admits hname (lookup_of_given? hd)
  cases d with
  | text s => exact hmeet s
  | _ => exact nomatch hkind

/-- What can be done with every text can be done with the items of a list of texts. -/
theorem Kinds.meets_items (h : a.Kinds settings) (hname : a.optionKinds.lookup name = some .list)
    (htexts : ∀ d ∈ settingItems settings name, ∃ s, d = .text s) {operation : Operation}
    {one : Datum → Except Breach Unit} (hmeet : ∀ items, operation.meet (.list items) = items.forM one)
    (hone : ∀ s, one (.text s) = .ok ()) : Meets settings (name, operation) := by
  intro d hd
  have hlookup := lookup_of_given? hd
  have hkind := h.admits hname hlookup
  cases d with
  | list items =>
      rw [settingItems, hlookup] at htexts
      rw [hmeet, forM_eq_ok]
      intro d hd
      obtain ⟨s, rfl⟩ := htexts d hd
      exact hone s
  | _ => exact nomatch hkind

theorem Kinds.writes_parts (h : a.Kinds settings) (hname : a.optionKinds.lookup name = some .list)
    (htexts : ∀ d ∈ settingItems settings name, ∃ s, d = .text s) : Meets settings (name, .writeParts) :=
  h.meets_items hname htexts (fun _ => rfl) fun _ => rfl

theorem Kinds.takes_texts (h : a.Kinds settings) (hname : a.optionKinds.lookup name = some .list)
    (htexts : ∀ d ∈ settingItems settings name, ∃ s, d = .text s) : Meets settings (name, .takeTexts) :=
  h.meets_items hname htexts (fun _ => rfl) fun _ => rfl

/-- The number of jobs is small enough to be written out. -/
theorem meets_jobs (h : pylint.Kinds settings) (hjobs : jobsComplaint settings = none) :
    Meets settings ("jobs", .write) := by
  intro d hd
  have hlookup := lookup_of_given? hd
  have hwhole : pylint.optionKinds.lookup "jobs" = some .whole := rfl
  have hkind := h.admits hwhole hlookup
  cases d with
  | int n =>
      rw [jobsComplaint, hlookup] at hjobs
      dsimp only at hjobs
      split at hjobs
      · next hbounds =>
        have hsmall : n.natAbs < 10 ^ 2 := by
          rw [Bool.and_eq_true, decide_eq_true_iff, decide_eq_true_iff] at hbounds
          omega
        -- the bound of the digits is never computed, a power of ten that is small enough will do
        have hdigits : 2 ≤ Decimal.maxWholeDigits := by decide
        have hroom : 10 ^ 2 ≤ 10 ^ Decimal.maxWholeDigits := Nat.pow_le_pow_right (by decide) hdigits
        have hfits : (Datum.int n).Fits := Datum.fits_int.mpr (Nat.lt_of_lt_of_le hsmall hroom)
        simp only [Operation.meet, Datum.told_of_fits hfits]
        rfl
      · exact nomatch hjobs
  | _ => exact nomatch hkind

theorem texts_of_entryComplaint {holds : String → Bool} (h : entryComplaint settings holds name = none) :
    ∀ d ∈ settingItems settings name, ∃ s, d = .text s := by
  intro d hd
  obtain ⟨s, rfl, -⟩ := exists_of_entryComplaint h d hd
  exact ⟨s, rfl⟩

theorem texts_of_defineComplaint (h : defineComplaint settings = none) :
    ∀ d ∈ settingItems settings "defines", ∃ s, d = .text s := by
  intro d hd
  rw [defineComplaint, Option.map_eq_none_iff, List.find?_eq_none] at h
  have hdefine := h d hd
  cases d with
  | text s => exact ⟨s, rfl⟩
  | _ => simp [isDefine] at hdefine

theorem texts_of_valgrindComplaint (h : valgrindComplaint settings = none) :
    ∀ d ∈ settingItems settings "args", ∃ s, d = .text s := by
  intro d hd
  unfold valgrindComplaint at h
  split at h
  · next hall =>
    have htext := List.all_eq_true.mp hall d hd
    cases d with
    | text s => exact ⟨s, rfl⟩
    | _ => exact nomatch htext
  · exact nomatch h

/-- **No accepted value meets an operation that it does not support.** -/
theorem operate_of_accepted {u : Usage} (hu : u ∈ usages) (h : u.analyzer.checkSettings settings = .ok ()) :
    operate u.operations settings = .ok () := by
  obtain ⟨hkinds, hcomplaint⟩ := checkSettings_eq_ok.mp h
  apply operate_eq_ok
  simp only [usages, List.mem_cons, List.not_mem_nil, or_false] at hu
  rcases hu with rfl | rfl | rfl | rfl | rfl | rfl | rfl | rfl
  case _ =>
    -- clippy
    simp only [List.forall_mem_cons]
    exact ⟨meets_test, meets_test, List.forall_mem_nil _⟩
  case _ =>
    -- cargoAudit
    simp only [List.forall_mem_cons]
    exact ⟨meets_test, meets_test, List.forall_mem_nil _⟩
  case _ =>
    -- gosec
    simp only [gosecUsage, List.forall_mem_cons]
    exact ⟨Kinds.meets_text hkinds rfl fun _ => rfl, meets_test, List.forall_mem_nil _⟩
  case _ =>
    -- staticcheck
    simp only [List.forall_mem_cons]
    exact ⟨meets_test, List.forall_mem_nil _⟩
  case _ =>
    -- clang
    have hdefines : defineComplaint settings = none := (Option.or_eq_none_iff.mp hcomplaint).2
    simp only [clangUsage, clangOperations, List.forall_mem_cons]
    exact ⟨Kinds.writes_parts hkinds rfl (texts_of_defineComplaint hdefines),
      Kinds.meets_text hkinds rfl fun _ => rfl, Kinds.meets_text hkinds rfl fun _ => rfl,
      List.forall_mem_nil _⟩
  case _ =>
    -- valgrind
    simp only [valgrindUsage, List.forall_mem_cons]
    exact ⟨meets_test, Kinds.meets_text hkinds rfl fun _ => rfl,
      Kinds.writes_parts hkinds rfl (texts_of_valgrindComplaint hcomplaint), List.forall_mem_nil _⟩
  case _ =>
    -- pylint
    obtain ⟨hentries, hjobs⟩ := Option.or_eq_none_iff.mp hcomplaint
    obtain ⟨hdisable, henable⟩ := Option.or_eq_none_iff.mp hentries
    simp only [pylintUsage, List.forall_mem_cons]
    exact ⟨Kinds.takes_texts hkinds rfl (texts_of_entryComplaint hdisable), meets_test,
      Kinds.takes_texts hkinds rfl (texts_of_entryComplaint henable), meets_jobs hkinds hjobs,
      List.forall_mem_nil _⟩
  case _ =>
    -- mypy
    obtain ⟨hentries, henable⟩ := Option.or_eq_none_iff.mp hcomplaint
    have hdisable := (Option.or_eq_none_iff.mp hentries).2
    simp only [mypyUsage, List.forall_mem_cons]
    exact ⟨meets_test, Kinds.meets_text hkinds rfl fun _ => rfl, meets_test,
      Kinds.takes_texts hkinds rfl (texts_of_entryComplaint hdisable),
      Kinds.takes_texts hkinds rfl (texts_of_entryComplaint henable), List.forall_mem_nil _⟩

/-! ## Paths among the options -/

variable {t : Tree} {task : Task} {b : Breach}

/-- A task whose root is canonical and a directory, to be run in the directory that the tool starts from. Where
no links form a cycle, whatever a path resolves to is canonical (`Tree.Acyclic.resolve_canonical`). -/
structure IsPlaced (a : Analyzer) (t : Tree) (task : Task) : Prop where
  canonical : t.resolve task.projectRoot = .ok task.projectRoot
  directory : t.isDirectory task.projectRoot = true
  toolRoot : ∃ limits, a.locateRoot t task.projectRoot limits = .ok task.toolRoot

theorem IsPlaced.resolveBase (h : a.IsPlaced t task) (hsound : t.IsSound) :
    t.resolveBase task.projectRoot = .ok task.projectRoot := by
  obtain ⟨n, hn⟩ := Tree.stat_of_test h.directory
  exact Tree.resolveBase_eq_ok.mpr ⟨fun c hc => (Tree.isComponent_of_stat hsound hn c hc).2, h.canonical⟩

/-- The values that are taken for paths, with what each has to lead to: directories to include from, and a
program unless its name is empty. -/
def givenPaths (settings : ToolSettings) : List (Datum × PathKind) :=
  (settingItems settings "include_dirs").map (·, .directory) ++
    ((settingText? settings "executable").toList.filter (· != "")).map fun s => (.text s, .file)

/-- A value is written out and checked as a path. -/
def checkGivenPath (t : Tree) (task : Task) (given : Datum × PathKind) : Except Failure Path := do
  checkOptionPath t task given.2 (← given.1.told.mapError .breach)

/-- How the check of a given path breaks off: its value cannot be written out, or it cannot be looked at. -/
inductive BreaksOff (t : Tree) (task : Task) (given : Datum × PathKind) : Breach → Prop where
  | overlong (h : ¬ given.1.Fits) : BreaksOff t task given Decimal.overlong
  | unreadable (hfits : given.1.Fits)
      (h : t.IsUnreadable task.projectRoot (optionPath task given.1.display).toString) :
      BreaksOff t task given .fileSystem

/-- The first of the given paths that does not pass breaks off. -/
def Stops (t : Tree) (task : Task) (b : Breach) : Prop :=
  ∃ before given after, givenPaths task.settings = before ++ given :: after ∧
    (∀ other ∈ before, ∃ p, checkGivenPath t task other = .ok p) ∧ BreaksOff t task given b

theorem checkOptionPath_ends (hroot : t.resolveBase task.projectRoot = .ok task.projectRoot) (kind : PathKind)
    (raw : String) : Tree.Ends (checkOptionPath t task kind raw) fun b =>
      b = .fileSystem ∧ t.IsUnreadable task.projectRoot (optionPath task raw).toString := by
  have hends : Tree.Ends (t.checkPath (optionPath task raw).toString
      { kind, root := some task.projectRoot, denied := [] }) fun b =>
        b = .fileSystem ∧ t.IsUnreadable task.projectRoot (optionPath task raw).toString := by
    refine Tree.checkPath_ends.congr fun b => ?_
    simp only [Tree.breaks_iff hroot, Tree.IsUnreadable]
    constructor
    · rintro ⟨hraw, q, hq, rfl, hunreadable⟩
      exact ⟨rfl, hraw, q, hq, hunreadable⟩
    · rintro ⟨rfl, hraw, q, hq, hunreadable⟩
      exact ⟨hraw, q, hq, rfl, hunreadable⟩
  exact ⟨fun problem h => hends.refuses problem (map_eq_error.mp h),
    fun b => map_eq_error.trans (hends.breaks b)⟩

theorem checkGivenPath_of_fits {given : Datum × PathKind} (h : given.1.Fits) :
    checkGivenPath t task given = checkOptionPath t task given.2 given.1.display := by
  rw [checkGivenPath, Datum.told_of_fits h, Except.mapError, ok_bind]

theorem checkGivenPath_ends (hroot : t.resolveBase task.projectRoot = .ok task.projectRoot)
    (given : Datum × PathKind) : Tree.Ends (checkGivenPath t task given) (BreaksOff t task given) := by
  by_cases hfits : given.1.Fits
  · rw [checkGivenPath_of_fits hfits]
    refine (checkOptionPath_ends hroot given.2 given.1.display).congr fun b => ?_
    constructor
    · rintro ⟨rfl, hunreadable⟩
      exact .unreadable hfits hunreadable
    · intro h
      cases h with
      | overlong hover => exact absurd hfits hover
      | unreadable _ hunreadable => exact ⟨rfl, hunreadable⟩
  -- the path cannot even be written out, so it is not looked at
  · rw [checkGivenPath, Datum.told_of_not_fits hfits]
    show Tree.Ends (.error (.breach Decimal.overlong)) _
    refine (Tree.Ends.of_breach fun problem => by simp).congr fun b => ⟨fun h => ?_, fun h => ?_⟩
    · obtain rfl : Decimal.overlong = b := Failure.breach.inj (Except.error.inj h)
      exact .overlong hfits
    · cases h with
      | overlong => rfl
      | unreadable h => exact absurd h hfits

/-- Given paths are checked one by one, so the first one that does not pass decides. -/
theorem checkGivenPaths_ends (hroot : t.resolveBase task.projectRoot = .ok task.projectRoot) :
    Tree.Ends ((givenPaths task.settings).mapM (checkGivenPath t task)) (Stops t task) := by
  constructor
  · intro problem h
    obtain ⟨_, given, _, -, -, hgiven⟩ := mapM_eq_error.mp h
    exact (checkGivenPath_ends hroot given).refuses problem hgiven
  · intro b
    rw [mapM_eq_error]
    refine exists_congr fun before => exists_congr fun given => exists_congr fun after => ?_
    exact and_congr_right fun _ => and_congr_right fun _ => (checkGivenPath_ends hroot given).breaks b

/-! ## Plans -/

/-- How the making of a plan ends: every problem is one of the input, and it breaks off like this. -/
structure PlanEnds (x : Except Refusal Plan) (breaks : Breach → Prop) : Prop where
  refuses : ∀ problem, x = .error (.failed (.problem problem)) → problem.isInput = true
  breaks : ∀ b, x = .error (.failed (.breach b)) ↔ breaks b

namespace PlanEnds

variable {breaks : Breach → Prop}

theorem of_plan {plan : Plan} (hnone : ∀ b, ¬ breaks b) : PlanEnds (.ok plan) breaks :=
  ⟨nofun, fun b => ⟨nofun, fun hb => absurd hb (hnone b)⟩⟩

theorem of_skipped {reason : String} (hnone : ∀ b, ¬ breaks b) : PlanEnds (.error (.skipped reason)) breaks :=
  ⟨nofun, fun b => ⟨nofun, fun hb => absurd hb (hnone b)⟩⟩

theorem of_problem {problem : Problem} (hinput : problem.isInput = true) (hnone : ∀ b, ¬ breaks b) :
    PlanEnds (.error (.failed (.problem problem))) breaks := by
  refine ⟨fun other h => ?_, fun b => ⟨nofun, fun hb => absurd hb (hnone b)⟩⟩
  rw [← Failure.problem.inj (Refusal.failed.inj (Except.error.inj h))]
  exact hinput

/-- A plan is made from what a computation gives. -/
theorem of_ends {α : Type} {x : Except Failure α} (h : Tree.Ends x breaks) (f : α → Plan) :
    PlanEnds ((x.mapError .failed).map f) breaks := by
  cases x with
  | ok result => exact .of_plan fun b hb => nomatch (h.breaks b).mpr hb
  | error failure =>
      refine ⟨fun problem hx => ?_, fun b => ⟨fun hx => ?_, fun hb => ?_⟩⟩
      · exact (h.refuses problem (congrArg Except.error (Refusal.failed.inj (Except.error.inj hx)))).1
      · exact (h.breaks b).mp (congrArg Except.error (Refusal.failed.inj (Except.error.inj hx)))
      · rw [Except.error.inj ((h.breaks b).mpr hb)]
        rfl

end PlanEnds

theorem not_stops (h : givenPaths task.settings = []) : ¬ Stops t task b := by
  rintro ⟨before, given, after, hgiven, -⟩
  rw [h] at hgiven
  exact absurd hgiven.symm (List.append_ne_nil_of_right_ne_nil before nofun)

theorem stops_singleton {given : Datum × PathKind} (h : givenPaths task.settings = [given]) :
    Stops t task b ↔ BreaksOff t task given b := by
  constructor
  · rintro ⟨before, other, after, hgiven, -, hbreaks⟩
    rw [h] at hgiven
    cases before with
    | nil => exact (List.cons.inj hgiven).1 ▸ hbreaks
    | cons first before =>
        have hnil := (List.cons.inj hgiven).2
        exact absurd hnil.symm (List.append_ne_nil_of_right_ne_nil before nofun)
  · exact fun hbreaks => ⟨[], given, [], h, nofun, hbreaks⟩

/-- The project lies in the module that it was found in. -/
theorem IsPlaced.exists_packagePlan (h : a.IsPlaced t task) (hparents : a.searchesParents = true)
    (arguments : List String) : ∃ plan, packagePlan task arguments = .ok plan := by
  obtain ⟨limits, hlocate⟩ := h.toolRoot
  obtain ⟨here, hhere, habove⟩ := Tree.isWithin_of_markerRoot (markerRoot_of_locateRoot hparents hlocate)
  obtain rfl := Except.ok.inj (h.canonical.symm.trans hhere)
  have hbelow : task.projectRoot.relativeTo? task.toolRoot =
      some (task.projectRoot.parts.drop task.toolRoot.parts.length) := by
    rw [Path.relativeTo?, if_pos habove]
  exact ⟨_, packagePlan_eq_ok.mpr ⟨_, hbelow, rfl⟩⟩

theorem Kinds.lookup_eq_none (h : a.Kinds settings) (hname : a.optionKinds.lookup name = none) :
    Datum.lookup name settings = none := by
  cases hd : Datum.lookup name settings with
  | none => rfl
  | some d =>
      have hnone := h _ (Datum.mem_of_lookup hd)
      rw [kindComplaint, hname] at hnone
      cases hnone

/-- The directories to include from are all paths that the Clang analyzer is given. -/
theorem givenPaths_clang (h : clang.Kinds settings) :
    givenPaths settings = (settingItems settings "include_dirs").map (·, .directory) := by
  rw [givenPaths, settingText?, h.lookup_eq_none rfl]
  exact List.append_nil _

/-- The program is the only path that valgrind is given. -/
theorem givenPaths_valgrind (h : valgrind.Kinds settings) :
    givenPaths settings =
      ((settingText? settings "executable").toList.filter (· != "")).map fun s => (.text s, .file) := by
  rw [givenPaths, settingItems, h.lookup_eq_none rfl]
  rfl

theorem givenPaths_eq_nil (h : a.Kinds settings) (hincludes : a.optionKinds.lookup "include_dirs" = none)
    (hprogram : a.optionKinds.lookup "executable" = none) : givenPaths settings = [] := by
  rw [givenPaths, settingItems, settingText?, h.lookup_eq_none hincludes, h.lookup_eq_none hprogram]
  rfl

/-- The commands for all sources, once the directories are known. -/
def clangPlanWith (task : Task) (directories : List Path) : Plan :=
  { invocations := task.files.mapIdx (clangInvocation task (clangArguments task directories)) }

theorem clangUsage_plan (h : clang.Kinds task.settings) (hmeets : operate clangOperations task.settings = .ok ()) :
    clangUsage.plan t task =
      (((givenPaths task.settings).mapM (checkGivenPath t task)).mapError .failed).map (clangPlanWith task) := by
  have hentries : partsOf task.settings "include_dirs" = .ok (settingItems task.settings "include_dirs") :=
    h.partsOf_eq rfl
  have hchecks : checkGivenPath t task ∘ (·, PathKind.directory) = includeDirectory t task := rfl
  rw [givenPaths_clang h, List.mapM_map, hchecks]
  show ((partsOf task.settings "include_dirs").mapError _ >>= _) = _
  rw [hentries, Except.mapError, ok_bind, hmeets]
  cases (settingItems task.settings "include_dirs").mapM (includeDirectory t task) <;> rfl

/-- The program that is run is the path that is given. -/
theorem valgrind_planEnds (hroot : t.resolveBase task.projectRoot = .ok task.projectRoot)
    (h : valgrind.Kinds task.settings) : PlanEnds (valgrind.plan t task) (Stops t task) := by
  have hgiven := givenPaths_valgrind h
  show PlanEnds ((programOf t task).map _) _
  unfold programOf
  cases hraw : settingText? task.settings "executable" with
  | none =>
      rw [hraw] at hgiven
      exact .of_skipped fun b => not_stops hgiven
  | some raw =>
      rw [hraw] at hgiven
      rw [Option.getD_some]
      split
      · exact .of_skipped fun b => not_stops hgiven
      · next hne =>
        have hone : givenPaths task.settings = [(.text raw, .file)] := by
          rw [hgiven, Option.toList_some, List.filter_cons_of_pos (by simpa using hne)]
          rfl
        have hgivenPath : checkGivenPath t task (.text raw, .file) = checkOptionPath t task .file raw :=
          checkGivenPath_of_fits (Datum.fits_of_no_wholes rfl)
        have hends : Tree.Ends (checkOptionPath t task .file raw) (Stops t task) := by
          rw [← hgivenPath]
          exact (checkGivenPath_ends hroot _).congr fun b => (stops_singleton hone).symm
        -- whether the program may be executed is asked once its path has passed
        cases hcheck : checkOptionPath t task .file raw with
        | error failure =>
            rw [hcheck] at hends
            exact .of_ends hends fun program => { invocations := [valgrindInvocation task program] }
        | ok program =>
            have hpasses (b : Breach) : ¬ Stops t task b := fun hstops =>
              nomatch hcheck.symm.trans ((hends.breaks b).mpr hstops)
            dsimp only
            split
            · exact .of_plan hpasses
            · exact .of_problem rfl hpasses

/-- A directory to include from is checked by its text, if that can be written out. -/
theorem clangUsage_plan_of_fits (h : clang.Kinds task.settings)
    (hmeets : operate clangOperations task.settings = .ok ())
    (hfits : ∀ given ∈ givenPaths task.settings, given.1.Fits) : clangUsage.plan t task = clang.plan t task := by
  have hdirectories : (givenPaths task.settings).mapM (checkGivenPath t task) = includeDirectories t task := by
    rw [givenPaths_clang h] at hfits ⊢
    rw [List.mapM_map, includeDirectories]
    refine mapM_congr fun d hd => ?_
    exact checkGivenPath_of_fits (hfits _ (List.mem_map_of_mem hd))
  rw [clangUsage_plan h hmeets, hdirectories]
  show _ = clangPlan t task
  unfold clangPlan
  cases includeDirectories t task <;> rfl

theorem plan_of_operate {operations : List (String × Operation)} {x : Except Refusal Plan}
    (h : operate operations settings = .ok ()) :
    (do (operate operations settings).mapError fun b => Refusal.failed (.breach b); x) = x := by
  rw [h]
  rfl

/-- A tool that is given no path makes the plan of its analyzer. -/
theorem plan_of_pathless {u : Usage} (hkinds : u.analyzer.Kinds task.settings)
    (hincludes : u.analyzer.optionKinds.lookup "include_dirs" = none)
    (hprogram : u.analyzer.optionKinds.lookup "executable" = none)
    (hplan : u.plan t task = u.analyzer.plan t task) (hok : ∃ plan, u.analyzer.plan t task = .ok plan) :
    PlanEnds (u.plan t task) (Stops t task) ∧
      ((∀ given ∈ givenPaths task.settings, given.1.Fits) → u.plan t task = u.analyzer.plan t task) := by
  obtain ⟨plan, hok⟩ := hok
  refine ⟨?_, fun _ => hplan⟩
  rw [hplan, hok]
  exact .of_plan fun b => not_stops (givenPaths_eq_nil hkinds hincludes hprogram)

/-- **How plans for accepted options end.** -/
theorem plan_of_accepted {u : Usage} (hu : u ∈ usages) (hsound : t.IsSound)
    (h : u.analyzer.checkSettings task.settings = .ok ()) (hplaced : u.analyzer.IsPlaced t task) :
    PlanEnds (u.plan t task) (Stops t task) ∧
      ((∀ given ∈ givenPaths task.settings, given.1.Fits) → u.plan t task = u.analyzer.plan t task) := by
  have hkinds : u.analyzer.Kinds task.settings := (checkSettings_eq_ok.mp h).1
  have hmeets := operate_of_accepted hu h
  have hroot := hplaced.resolveBase hsound
  simp only [usages, List.mem_cons, List.not_mem_nil, or_false] at hu
  -- only Clang and Valgrind are given paths among their options
  rcases hu with rfl | rfl | rfl | rfl | rfl | rfl | rfl | rfl
  case _ => exact plan_of_pathless hkinds rfl rfl (plan_of_operate hmeets) ⟨_, rfl⟩
  case _ => exact plan_of_pathless hkinds rfl rfl (plan_of_operate hmeets) ⟨_, rfl⟩
  case _ =>
    have hpackages := hplaced.exists_packagePlan rfl (gosecArguments task)
    exact plan_of_pathless hkinds rfl rfl (plan_of_operate hmeets) hpackages
  case _ =>
    have hpackages := hplaced.exists_packagePlan rfl (staticcheckArguments task)
    exact plan_of_pathless hkinds rfl rfl (plan_of_operate hmeets) hpackages
  case _ =>
    refine ⟨?_, clangUsage_plan_of_fits hkinds hmeets⟩
    rw [clangUsage_plan hkinds hmeets]
    exact .of_ends (checkGivenPaths_ends hroot) (clangPlanWith task)
  case _ =>
    have hplan : valgrindUsage.plan t task = valgrind.plan t task := plan_of_operate hmeets
    refine ⟨?_, fun _ => hplan⟩
    rw [hplan]
    exact valgrind_planEnds hroot hkinds
  case _ => exact plan_of_pathless hkinds rfl rfl (plan_of_operate hmeets) ⟨_, rfl⟩
  case _ => exact plan_of_pathless hkinds rfl rfl (plan_of_operate hmeets) ⟨_, rfl⟩

/-- **Where options can go wrong.** The check of options accepts what there is no complaint about and refuses
everything else as an unknown option, unless some value holds a whole number that is too long to be written
out. No accepted value meets an operation that it does not support. With accepted options, the making of a plan
for a project at a canonical root ends with a plan, with nothing to do, or with a refusal of the input, and
breaks off exactly if the first given path that does not pass holds such a number, or resolves into the project
to what is too long to be looked at. -/
theorem options_end {u : Usage} (hu : u ∈ usages) (settings : ToolSettings) :
    (u.checkOptions settings = .ok () ↔ u.analyzer.checkSettings settings = .ok ()) ∧
    (∀ failure, u.checkOptions settings = .error failure → (∃ complaint, failure = u.analyzer.refusal complaint) ∨
      failure = .breach Decimal.overlong ∧ ¬ ∀ option ∈ settings, option.2.Fits) ∧
    ((∀ option ∈ settings, option.2.Fits) →
      u.checkOptions settings = (u.analyzer.checkSettings settings).mapError .problem) ∧
    (u.checkOptions settings = .ok () → operate u.operations settings = .ok () ∧
      ∀ (t : Tree) (task : Task), t.IsSound → task.settings = settings → u.analyzer.IsPlaced t task →
        (∀ problem, u.plan t task = .error (.failed (.problem problem)) → problem.isInput = true) ∧
        (∀ b, u.plan t task = .error (.failed (.breach b)) ↔ Stops t task b) ∧
        ((∀ given ∈ givenPaths settings, given.1.Fits) → u.plan t task = u.analyzer.plan t task)) := by
  have hagrees := agrees_checkOptions hu settings
  have haccepts := hagrees.eq_ok_iff.trans checkSettings_iff.symm
  refine ⟨haccepts, fun failure => hagrees.refusal_or_overlong, hagrees.eq_of_fits, fun hok => ?_⟩
  have haccepted := haccepts.mp hok
  refine ⟨operate_of_accepted hu haccepted, ?_⟩
  rintro t task hsound rfl hplaced
  obtain ⟨hends, hagain⟩ := plan_of_accepted hu hsound haccepted hplaced
  exact ⟨hends.refuses, hends.breaks, hagain⟩

theorem givenPaths_includeTask (directory source : String) :
    givenPaths (includeTask directory source).settings = [(.text directory, .directory)] := rfl

theorem isPlaced_projectWith (directory : String) :
    clang.IsPlaced (projectWith "inc" "main.c") (includeTask directory "main.c") := by
  have hprepares : clang.Prepares (projectWith "inc" "main.c") (includeTask "inc" "main.c") :=
    clang_prepares (by rfl) (by decide +kernel) (by decide +kernel) (by decide +kernel)
  have hcanonical : (projectWith "inc" "main.c").resolve DiscoverOptions.projectRoot =
      .ok DiscoverOptions.projectRoot := by decide +kernel
  exact ⟨hcanonical, hprepares.directory, hprepares.toolRoot⟩

/-- Options for a directory to include from and a definition are accepted, and the source gets its command. -/
theorem options_end_include :
    let t := projectWith "inc" "main.c"
    let task := includeTask "inc" "main.c"
    clangUsage.checkOptions task.settings = .ok () ∧
      ∃ plan, clangUsage.plan t task = .ok plan ∧ plan.invocations.length = 1 := by
  intro t task
  have hsound : t.IsSound := ⟨by decide +kernel, by decide +kernel, by decide, by decide⟩
  obtain ⟨haccepts, -, -, hends⟩ := options_end (u := clangUsage) (by simp [usages]) task.settings
  have hchecked : clangUsage.checkOptions task.settings = .ok () := haccepts.mpr (by rfl)
  obtain ⟨-, hplans⟩ := hends hchecked
  obtain ⟨-, -, hagain⟩ := hplans t task hsound rfl (isPlaced_projectWith "inc")
  have hdirectories : includeDirectories t task = .ok [Path.rooted ["project", "inc"]] := by decide +kernel
  refine ⟨hchecked, _, (hagain ?_).trans (clang_plan_eq_ok.mpr ⟨_, hdirectories, rfl⟩), rfl⟩
  intro given hgiven
  rw [givenPaths_includeTask, List.mem_singleton] at hgiven
  rw [hgiven]
  exact Datum.fits_of_no_wholes rfl

/-- The first item that is not admitted ends the check of a list. -/
theorem checkParts_eq_error {admits : Datum → Bool} {otherwise : Datum → Except Failure Unit} {d : Datum}
    {rest : List Datum} {failure : Failure} (hparts : partsOf settings name = .ok (d :: rest))
    (hadmits : admits d = false) (hother : otherwise d = .error failure) :
    checkParts settings name admits otherwise = .error failure := by
  rw [checkParts, hparts, Except.mapError, ok_bind, List.forM_eq_forM, List.forM_cons, hadmits,
    if_neg Bool.false_ne_true, hother]
  rfl

/-- A whole number that is too long cannot be shown as what is wrong with a list of messages. -/
theorem pylint_check_overlong {n : Int} (h : ¬ (Datum.int n).Fits) :
    pylintUsage.checkOptions [("disable", .list [.int n])] = .error (.breach Decimal.overlong) := by
  have hrefused : pylint.entryRefusal "disable" (.int n) = .error (.breach Decimal.overlong) := by
    rw [entryRefusal, refuse, Datum.written_of_not_fits h]
  have hsteps : pylintUsage.checkOptions [("disable", .list [.int n])] =
      pylintUsage.check [("disable", .list [.int n])] := rfl
  rw [hsteps]
  show (checkParts _ "disable" _ _ >>= _) = _
  rw [checkParts_eq_error rfl rfl hrefused]
  rfl

/-- **Two options that break off.** A directory to include from is accepted whatever its name is, but one with
a name that is too long is no directory that is missing: the file system refuses to look at it. A whole number
that is too long, where the name of a message is expected, breaks off the check itself. -/
theorem clang_include_long_name :
    let long := String.ofList (List.replicate 256 'x')
    let t := projectWith "inc" "main.c"
    let task := includeTask long "main.c"
    t.IsSound ∧ clang.IsPlaced t task ∧ clangUsage.checkOptions task.settings = .ok () ∧
      clangUsage.plan t task = .error (.failed (.breach .fileSystem)) ∧
      pylintUsage.checkOptions [("disable", .list [.int (10 ^ Decimal.maxWholeDigits : Nat)])] =
        .error (.breach Decimal.overlong) := by
  intro long t task
  have hsound : t.IsSound := ⟨by decide +kernel, by decide +kernel, by decide, by decide⟩
  have hplaced : clang.IsPlaced t task := isPlaced_projectWith long
  have hsettings : clang.checkSettings task.settings = .ok () := by rfl
  have husage : clangUsage ∈ usages := by simp [usages]
  have hagrees := agrees_checkOptions husage task.settings
  have hunreadable : t.IsUnreadable task.projectRoot (optionPath task long).toString := by
    have hslash : '/' ∉ long.toList ∧ '\x00' ∉ long.toList := by
      rw [String.toList_ofList]
      exact ⟨fun h => absurd (List.eq_of_mem_replicate h) (by decide),
        fun h => absurd (List.eq_of_mem_replicate h) (by decide)⟩
    have hname : IsName long := by decide +kernel
    have hpath : optionPath task long = Path.rooted ["project", long] := by
      rw [optionPath, Path.ofString_name hslash.1 ⟨hname.1, hname.2.1⟩]
      rfl
    have hclean : Tree.IsClean (Path.rooted ["project", long]) := by
      refine ⟨rfl, List.forall_mem_cons.mpr ⟨⟨by decide, by decide, by decide⟩, ?_⟩⟩
      exact List.forall_mem_singleton.mpr ⟨hname, hslash⟩
    have hlook : t.exists? (Path.rooted ["project", long]) = .error .nameTooLong := by decide +kernel
    rw [hpath]
    exact hclean.isUnreadable_toString (by decide +kernel) (by decide +kernel) (by decide +kernel)
      (by decide +kernel) (Tree.exists?_eq_error.mp hlook).2
  refine ⟨hsound, hplaced, hagrees.eq_ok_iff.mpr (checkSettings_iff.mp hsettings), ?_, ?_⟩
  · obtain ⟨hends, -⟩ := plan_of_accepted husage hsound hsettings hplaced
    have hone := givenPaths_includeTask long "main.c"
    have hdatum : (Datum.text long).Fits := Datum.fits_of_no_wholes rfl
    exact (hends.breaks .fileSystem).mpr ((stops_singleton hone).mpr (.unreadable hdatum hunreadable))
  · apply pylint_check_overlong
    rw [Datum.fits_int, Int.natAbs_natCast]
    exact Nat.lt_irrefl _

end Analyzer

end Assay

import Assay.Registry
import Assay.Proofs.Files.Decision
import Assay.Proofs.Selection

/-!
# Two searches for sources

A tool that is given its sources looks for them twice: for a first one that makes the directory its root, and
for all that it is given. Whatever the second search considers the first one does, too, but the limit for the
size of a file that a run is given holds for the second search only. So a project with sources is refused
exactly if there is no marker in it and the checks refuse every candidate of the first search
(`locateRoot_eq_problem`), which takes sources all of which are larger than the usual limit
(`locateRoot_of_collectFiles`). There are such projects (`locateRoot_oversized`).
-/

namespace Assay

open Files Files.Tree

namespace Files.Tree

variable {t : Tree} {p : Path} {policy : PathPolicy} {raw : String} {checked : CheckedPath} {limit : Int}

/-- What passes the last checks passes them under any limit that it keeps to. -/
theorem checkTarget_of_limit (h : t.checkTarget p policy = .ok checked) (hsize : (checked.size : Int) ≤ limit) :
    t.checkTarget p { policy with maxFileBytes := some limit } = .ok checked := by
  obtain ⟨present, hpresent, hsome, hfile, hdirectory, hextension, rfl, -⟩ := checkTarget_eq_ok.mp h
  refine checkTarget_eq_ok.mpr ⟨present, hpresent, hsome, hfile, hdirectory, hextension, rfl, ?_⟩
  rintro limit ⟨⟩
  exact hsize

theorem checkPath_of_limit (h : t.checkPath raw policy = .ok checked) (hsize : (checked.size : Int) ≤ limit) :
    t.checkPath raw { policy with maxFileBytes := some limit } = .ok checked := by
  obtain ⟨hraw, p, hcanonical, hblocked, hroot, htarget⟩ := checkPath_eq_ok.mp h
  exact checkPath_eq_ok.mpr ⟨hraw, p, hcanonical, hblocked, hroot, checkTarget_of_limit htarget hsize⟩

theorem exists_resolveBase {base : Path} (h : t.checkPath raw policy = .ok checked) (hbase : policy.root = some base) :
    ∃ q, t.resolveBase base = .ok q := by
  obtain ⟨-, p, -, -, hroot, -⟩ := checkPath_eq_ok.mp h
  obtain ⟨q, -, hq, -⟩ := checkRoot_sound hroot hbase
  exact ⟨q, hq⟩

theorem not_refused (h : t.checkPath raw policy = .ok checked) :
    ¬ ∃ fault : PathFault, t.checkPath raw policy = .error fault.failure := by
  rintro ⟨fault, hfault⟩
  rw [h] at hfault
  simp at hfault

end Files.Tree

namespace DiscoverOptions

variable {o : DiscoverOptions} {t : Tree} {root : Path} {d : Discovered}
  {check : Path → Except Failure CheckedPath} {budget : Budget} {found : Discovered} {candidates : List Path}

theorem Keeps.paths_eq_nil {all kept : List CheckedPath} (h : o.Keeps all kept d) (hfiles : 1 ≤ o.maxFiles)
    (hcap : o.maxTotalBytes = none) : d.paths = [] ↔ all = [] := by
  rw [h.paths, List.map_eq_nil_iff]
  constructor
  · rintro rfl
    cases all with
    | nil => rfl
    | cons f rest =>
        -- one file alone would be admitted, so the longest beginning that is cannot be empty
        have hone : o.Admits [f] := ⟨by simpa using hfiles, fun _ _ _ cap hmax => by simp [hcap] at hmax⟩
        have hlength := h.longest [f] ⟨rest, rfl⟩ hone
        simp at hlength
  · rintro rfl
    exact List.prefix_nil.mp h.begins

/-- Taking candidates ends in no problem, since a problem of the input only skips a candidate. -/
theorem collect_ne_problem (h : ∀ c ∈ candidates, ∀ problem, check c = .error (.problem problem) →
    problem.isInput = true) (problem : Problem) :
    o.collect check budget found candidates ≠ .error (.problem problem) := by
  induction candidates generalizing budget found with
  | nil => simp [collect]
  | cons c candidates ih =>
      obtain ⟨hc, hrest⟩ := List.forall_mem_cons.mp h
      rw [collect]
      cases hcheck : check c with
      | error failure =>
          cases failure with
          | problem other =>
              dsimp only
              rw [if_pos (hc other hcheck)]
              exact ih hrest
          | breach b => simp
      | ok checked =>
          dsimp only
          split
          · simp
          · cases hcharge : budget.charge checked.size with
            | error failure => cases failure <;> simp
            | ok after => exact ih hrest

theorem collect_refused (h : o.collect check budget found candidates = .ok d)
    (hnone : ∀ c ∈ candidates, (check c).toOption = none) :
    ∀ c ∈ candidates, ∃ problem, check c = .error (.problem problem) := by
  -- what is found so far changes along the way, but no candidate adds to it
  induction candidates generalizing found with
  | nil => simp
  | cons c candidates ih =>
      obtain ⟨hc, hrest⟩ := List.forall_mem_cons.mp hnone
      rcases collect_cons_eq_ok.mp h with ⟨problem, hcheck, -, h⟩ | ⟨checked, hcheck, -⟩
      · exact List.forall_mem_cons.mpr ⟨⟨problem, hcheck⟩, ih h hrest⟩
      · simp [hcheck, Except.toOption] at hc

theorem discover_ne_problem (problem : Problem) : o.discover t root ≠ .error (.problem problem) := by
  by_cases hfiles : o.maxFiles ≤ 0
  · rw [discover, if_pos hfiles]
    simp [pure, Except.pure]
  · intro h
    cases hroot : t.resolve root with
    | error b =>
        have hfails : t.resolveOrFail root = .error (.breach b) := by rw [resolveOrFail, hroot]
        rw [discover, if_neg hfiles, hfails] at h
        simp [bind, Except.bind] at h
    | ok resolved =>
        rw [discover_of_root hfiles (resolveOrFail_eq_ok.mpr hroot)] at h
        exact collect_ne_problem (fun _ _ problem hproblem => (checkPath_ends.refuses problem hproblem).1) _ h

/-- **A discovery without a cap on bytes finds nothing** exactly if the checks refuse every candidate. -/
theorem discover_eq_nothing {resolved : Path} (hfiles : 1 ≤ o.maxFiles) (hcap : o.maxTotalBytes = none)
    (hroot : t.resolve root = .ok resolved) :
    (∃ d, o.discover t root = .ok d ∧ d.paths = []) ↔ ∀ c ∈ o.candidates t resolved,
      ∃ fault : PathFault, t.checkPath c.toString (o.policy resolved) = .error fault.failure := by
  have hfrom := discover_of_root (o := o) (by omega) (resolveOrFail_eq_ok.mpr hroot)
  have hempty {d : Discovered} (hd : o.discover t root = .ok d) : d.paths = [] ↔ o.accepted t resolved = [] := by
    obtain ⟨resolved', kept, hresolved, hkept⟩ := discover_eq_ok hfiles hd
    obtain rfl := Except.ok.inj (hroot.symm.trans hresolved)
    exact hkept.paths_eq_nil hfiles hcap
  constructor
  · rintro ⟨d, hd, hpaths⟩ c hc
    -- a search that ends with nothing has refused every candidate, and refusals are all that it skips
    have hnone := (hempty hd).mp hpaths
    rw [accepted, List.filterMap_eq_nil_iff] at hnone
    rw [hfrom] at hd
    obtain ⟨problem, hproblem⟩ := collect_refused hd hnone c hc
    obtain ⟨-, fault, rfl⟩ := checkPath_ends.refuses problem hproblem
    exact ⟨fault, hproblem⟩
  · intro hrefused
    obtain ⟨d, hd⟩ : ∃ d, o.discover t root = .ok d := by
      rw [hfrom]
      refine collect_ends ?_ fun c hc => .inr (hrefused c hc)
      intro cap hsome
      rw [hcap] at hsome
      cases hsome
    refine ⟨d, hd, (hempty hd).mpr (List.filterMap_eq_nil_iff.mpr fun c hc => ?_)⟩
    obtain ⟨fault, hfault⟩ := hrefused c hc
    rw [hfault]
    rfl

end DiscoverOptions

namespace Analyzer

variable {a : Analyzer} {t : Tree} {root resolved : Path} {options : LanguageOptions} {limits : ResourceLimits}
  {d : Discovered}

/-- The largest size of a file that the first search takes, in bytes. -/
def usualFileBytes : Int := 10 * 1024 * 1024

/-- The markers in a directory, and the candidates of the first search below what it resolves to, can be looked
at. -/
structure Lookable (a : Analyzer) (t : Tree) (root resolved : Path) (limits : ResourceLimits) : Prop where
  markers : ∃ marked, markedBy t root a.markers = .ok marked
  candidates : ∀ c ∈ (a.sampleOptions limits).candidates t resolved, ∀ p, t.canonical c.toString = .ok p →
    ∃ present, t.exists? p = .ok present

/-- A tool that is given its sources is not looked for above the root of the project. -/
theorem searchesParents_of_takesFiles (ha : a ∈ standard) (htakes : a.takesFiles = true) :
    a.searchesParents = false := by
  have hall : ∀ a ∈ standard, a.takesFiles = true → a.searchesParents = false := by simp [standard, clippy,
    cargoAudit, gosec, staticcheck, clang, valgrind, pylint, mypy]
  exact hall a ha htakes

/-! ## The first search -/

theorem markedBy_ne_problem {markers : List String} {problem : Problem} :
    markedBy t root markers ≠ .error (.problem problem) := by
  intro h
  obtain ⟨b, -, hb⟩ := mapError_eq_error.mp h
  exact nomatch hb

theorem locateRoot_of_marker (hown : a.searchesParents = false) (h : markedBy t root a.markers = .ok true) :
    a.locateRoot t root limits = .ok root := by
  unfold locateRoot
  rw [if_neg (by simp [hown]), h]
  rfl

theorem locateRoot_of_unmarked (hown : a.searchesParents = false) (h : markedBy t root a.markers = .ok false) :
    a.locateRoot t root limits = ((a.sampleOptions limits).discover t root >>= fun sample =>
      if sample.paths.isEmpty then .error (a.noProject ("no sources under " ++ root.toString)) else .ok root) := by
  unfold locateRoot
  rw [if_neg (by simp [hown]), h]
  rfl

theorem hasWritableLimits_sampleOptions : (a.sampleOptions limits).HasWritableLimits :=
  ⟨show Decimal.isWritable usualFileBytes = true by decide +kernel, nofun⟩

theorem sample_eq_nothing (hroot : t.resolve root = .ok resolved) :
    (∃ sample, (a.sampleOptions limits).discover t root = .ok sample ∧ sample.paths = []) ↔
      ∀ c ∈ (a.sampleOptions limits).candidates t resolved, ∃ fault : PathFault,
        t.checkPath c.toString ((a.sampleOptions limits).policy resolved) = .error fault.failure :=
  DiscoverOptions.discover_eq_nothing (Int.le_refl 1) rfl hroot

/-- **When a project is refused**: there is no marker in it, and the checks refuse every candidate of the first
search. -/
theorem locateRoot_eq_problem (hown : a.searchesParents = false) (hroot : t.resolve root = .ok resolved)
    {problem : Problem} : a.locateRoot t root limits = .error (.problem problem) ↔
      a.noProject ("no sources under " ++ root.toString) = .problem problem ∧
      markedBy t root a.markers = .ok false ∧
      ∀ c ∈ (a.sampleOptions limits).candidates t resolved, ∃ fault : PathFault,
        t.checkPath c.toString ((a.sampleOptions limits).policy resolved) = .error fault.failure := by
  constructor
  · intro h
    cases hmarked : markedBy t root a.markers with
    | error failure =>
        cases failure with
        | problem other => exact absurd hmarked markedBy_ne_problem
        | breach b =>
            unfold locateRoot at h
            rw [if_neg (by simp [hown]), hmarked] at h
            exact nomatch h
    | ok marked =>
        cases marked with
        | true =>
            rw [locateRoot_of_marker hown hmarked] at h
            exact nomatch h
        | false =>
            rw [locateRoot_of_unmarked hown hmarked] at h
            rcases bind_eq_error.mp h with h | ⟨sample, hsample, h⟩
            · exact absurd h (DiscoverOptions.discover_ne_problem problem)
            · split at h
              · next hempty =>
                exact ⟨Except.error.inj h, rfl, (sample_eq_nothing hroot).mp ⟨sample, hsample, List.isEmpty_iff.mp hempty⟩⟩
              · exact nomatch h
  · rintro ⟨hproblem, hmarked, hrefused⟩
    obtain ⟨sample, hsample, hempty⟩ := (sample_eq_nothing hroot).mpr hrefused
    rw [locateRoot_of_unmarked hown hmarked, hsample, ← hproblem]
    show (if sample.paths.isEmpty then _ else _) = _
    rw [hempty]
    rfl

/-- **When the directory becomes the root**, if it can be resolved once more and all that the first search meets
can be looked at: there is a marker in it, or the checks accept a candidate. -/
theorem locateRoot_eq_ok {base : Path} (hown : a.searchesParents = false) (hroot : t.resolve root = .ok resolved)
    (hbase : t.resolveBase resolved = .ok base) (hlook : a.Lookable t root resolved limits) :
    a.locateRoot t root limits = .ok root ↔ markedBy t root a.markers = .ok true ∨
      ∃ c ∈ (a.sampleOptions limits).candidates t resolved, ∃ checked,
        t.checkPath c.toString ((a.sampleOptions limits).policy resolved) = .ok checked := by
  have hlimits : (a.sampleOptions limits).HasWritableLimits := hasWritableLimits_sampleOptions
  have hdecides : ∀ c ∈ (a.sampleOptions limits).candidates t resolved,
      Decides (t.checkPath c.toString ((a.sampleOptions limits).policy resolved)) :=
    fun c hc => DiscoverOptions.decides_of_candidate hlimits hbase (hlook.candidates c hc)
  obtain ⟨marked, hmarked⟩ := hlook.markers
  cases marked with
  | true => simp [locateRoot_of_marker hown hmarked, hmarked]
  | false =>
      have hunmarked : markedBy t root a.markers ≠ .ok true := by simp [hmarked]
      rw [or_iff_right hunmarked]
      constructor
      · intro h
        by_contra hnone
        have hrefused : ∀ c ∈ (a.sampleOptions limits).candidates t resolved, ∃ fault : PathFault,
            t.checkPath c.toString ((a.sampleOptions limits).policy resolved) = .error fault.failure := by
          intro c hc
          rcases hdecides c hc with ⟨checked, hok⟩ | hfault
          · exact absurd ⟨c, hc, checked, hok⟩ hnone
          · exact hfault
        rw [(locateRoot_eq_problem hown hroot).mpr ⟨rfl, hmarked, hrefused⟩] at h
        exact nomatch h
      -- a candidate that is accepted is found, or one before it is
      · rintro ⟨c, hc, checked, hok⟩
        obtain ⟨sample, hsample⟩ : ∃ sample, (a.sampleOptions limits).discover t root = .ok sample := by
          rw [DiscoverOptions.discover_of_root (show ¬ (1 : Int) ≤ 0 by decide) (resolveOrFail_eq_ok.mpr hroot)]
          exact DiscoverOptions.collect_ends hlimits.2 hdecides
        have hfound : ¬ sample.paths = [] := by
          intro hempty
          exact not_refused hok ((sample_eq_nothing hroot).mp ⟨sample, hsample, hempty⟩ c hc)
        rw [locateRoot_of_unmarked hown hmarked, hsample]
        show (if sample.paths.isEmpty then _ else _) = _
        rw [if_neg (by simpa using hfound)]

/-! ## The second search -/

/-- The first search considers whatever the second one does. -/
theorem candidates_subset : (a.sourceOptions options limits).candidates t resolved ⊆
    (a.sampleOptions limits).candidates t resolved := by
  intro c hc
  obtain ⟨hmem, hselects⟩ := List.mem_filter.mp hc
  obtain ⟨hending, -⟩ := Bool.and_eq_true_iff.mp hselects
  exact List.mem_filter.mpr ⟨hmem, Bool.and_eq_true_iff.mpr ⟨hending, rfl⟩⟩

/-- What the second search accepts the first one does, too, unless it is too large for that. -/
theorem checkPath_sample {c : Path} {checked : CheckedPath}
    (h : t.checkPath c.toString ((a.sourceOptions options limits).policy resolved) = .ok checked)
    (hsize : (checked.size : Int) ≤ usualFileBytes) :
    t.checkPath c.toString ((a.sampleOptions limits).policy resolved) = .ok checked := by
  have hpolicy : (a.sampleOptions limits).policy resolved =
      { (a.sourceOptions options limits).policy resolved with maxFileBytes := some usualFileBytes } := rfl
  rw [hpolicy]
  exact checkPath_of_limit h hsize

/-- **The two searches for sources.** Let the second search for the sources of a tool find some. Then the
project is refused exactly if there is no marker in it and the checks refuse every candidate of the first search;
all sources of the second one are too large for the first one then. Where all that the first search meets can be
looked at, the directory becomes the root exactly if there is a marker in it or one of the candidates is accepted,
as is each source that is not too large, so every project is taken whose limit for the size of files is not above
the usual one. -/
theorem locateRoot_of_collectFiles (ha : a ∈ standard) (htakes : a.takesFiles = true)
    (h : a.collectFiles t root options limits = .ok d) (hne : d.paths ≠ []) :
    ∃ resolved kept, t.resolve root = .ok resolved ∧
      (a.sourceOptions options limits).Collects t resolved kept d ∧
      (∀ problem, a.locateRoot t root limits = .error (.problem problem) ↔
        a.noProject ("no sources under " ++ root.toString) = .problem problem ∧
        markedBy t root a.markers = .ok false ∧
        ∀ c ∈ (a.sampleOptions limits).candidates t resolved, ∃ fault : PathFault,
          t.checkPath c.toString ((a.sampleOptions limits).policy resolved) = .error fault.failure) ∧
      (∀ problem, a.locateRoot t root limits = .error (.problem problem) →
        ∀ e ∈ kept, usualFileBytes < (e.2.size : Int)) ∧
      (a.Lookable t root resolved limits →
        (a.locateRoot t root limits = .ok root ↔ markedBy t root a.markers = .ok true ∨
          ∃ c ∈ (a.sampleOptions limits).candidates t resolved, ∃ checked,
            t.checkPath c.toString ((a.sampleOptions limits).policy resolved) = .ok checked) ∧
        ((∃ e ∈ kept, (e.2.size : Int) ≤ usualFileBytes) → a.locateRoot t root limits = .ok root) ∧
        ((limits.maxFileBytes : Int) ≤ usualFileBytes → a.locateRoot t root limits = .ok root)) := by
  have hown := searchesParents_of_takesFiles ha htakes
  have hfiles : 1 ≤ (a.sourceOptions options limits).maxFiles := by
    by_contra hnone
    rw [collectFiles, DiscoverOptions.discover, if_pos (by omega)] at h
    obtain rfl := pure_eq_ok.mp h
    exact hne rfl
  obtain ⟨resolved, kept, hroot, hkept⟩ := DiscoverOptions.discover_collects hfiles h
  -- a source that is not too large is a candidate of the first search that is accepted
  have hsample {e : Path × CheckedPath} (he : e ∈ kept) (hsize : (e.2.size : Int) ≤ usualFileBytes) :
      ∃ c ∈ (a.sampleOptions limits).candidates t resolved, ∃ checked,
        t.checkPath c.toString ((a.sampleOptions limits).policy resolved) = .ok checked :=
    ⟨e.1, candidates_subset (hkept.candidate he), e.2, checkPath_sample (hkept.passed e he) hsize⟩
  refine ⟨resolved, kept, hroot, hkept, fun problem => locateRoot_eq_problem hown hroot, ?_, fun hlook => ?_⟩
  · intro problem hproblem e he
    obtain ⟨-, -, hrefused⟩ := (locateRoot_eq_problem hown hroot).mp hproblem
    by_contra hsize
    obtain ⟨c, hc, checked, hok⟩ := hsample he (Int.not_lt.mp hsize)
    exact not_refused hok (hrefused c hc)
  · obtain ⟨e, he⟩ : ∃ e, e ∈ kept := by
      refine List.exists_mem_of_ne_nil kept ?_
      rintro rfl
      exact hne (by simp [hkept.paths])
    -- a source has passed the checks, which resolve the root once more
    obtain ⟨base, hbase⟩ := exists_resolveBase (hkept.passed e he) rfl
    have hiff := locateRoot_eq_ok hown hroot hbase hlook
    have hsmall : (∃ e ∈ kept, (e.2.size : Int) ≤ usualFileBytes) → a.locateRoot t root limits = .ok root := by
      rintro ⟨e, he, hsize⟩
      exact hiff.mpr (.inr (hsample he hsize))
    refine ⟨hiff, hsmall, fun hlimit => hsmall ?_⟩
    exact ⟨e, he, Int.le_trans ((checkPath_passes (hkept.passed e he)).limit _ rfl) hlimit⟩

/-- A project of one source in Python. -/
def projectOf (name : String) (content : Content) : Tree := besideOutside [(name, .file content false)]

theorem candidates_projectOf {o : DiscoverOptions} {name : String} {content : Content}
    (hselects : o.selects DiscoverOptions.projectRoot (Path.rooted ["project", name]) = true) :
    o.candidates (projectOf name content) DiscoverOptions.projectRoot = [Path.rooted ["project", name]] := by
  unfold DiscoverOptions.candidates
  rw [projectOf, DiscoverOptions.files_besideOutside (List.pairwise_singleton _ _) (by simp [countsAsDirectory])]
  exact List.filter_cons_of_pos hselects

/-- The second search finds the only source if it passes the checks. -/
theorem collectFiles_projectOf {name : String} {content : Content}
    (hselects : (pylint.sourceOptions (.standard 1) limits).selects DiscoverOptions.projectRoot
      (Path.rooted ["project", name]) = true)
    (hroot : (projectOf name content).resolve DiscoverOptions.projectRoot = .ok DiscoverOptions.projectRoot)
    (hcheck : (projectOf name content).checkPath (Path.rooted ["project", name]).toString
      ((pylint.sourceOptions (.standard 1) limits).policy DiscoverOptions.projectRoot) =
        .ok ⟨Path.rooted ["project", name], content.size⟩)
    (hfiles : 1 ≤ limits.maxFiles) (hbytes : content.size ≤ limits.maxAggregateBytes) :
    ∃ d, pylint.collectFiles (projectOf name content) DiscoverOptions.projectRoot (.standard 1) limits = .ok d ∧
      d.paths = [Path.rooted ["project", name]] := by
  refine DiscoverOptions.discover_of_candidate ?_ (resolveOrFail_eq_ok.mpr hroot) (candidates_projectOf hselects)
    hcheck ?_
  · exact Int.ofNat_le.mpr hfiles
  · rintro _ ⟨⟩
    exact Int.ofNat_le.mpr hbytes

/-- A small source is found by both searches. -/
theorem locateRoot_of_collectFiles_small :
    let t := projectOf "main.py" (.text "x = 1\n")
    let root := DiscoverOptions.projectRoot
    ∃ d, pylint.collectFiles t root (.standard 1) {} = .ok d ∧ d.paths ≠ [] ∧
      pylint.locateRoot t root {} = .ok root := by
  intro t root
  have hroot : t.resolve root = .ok root := by decide +kernel
  obtain ⟨d, hd, hpaths⟩ : ∃ d, pylint.collectFiles t root (.standard 1) {} = .ok d ∧
      d.paths = [Path.rooted ["project", "main.py"]] :=
    collectFiles_projectOf (by decide +kernel) hroot (by decide +kernel) (by decide) (by decide)
  have hne : d.paths ≠ [] := by simp [hpaths]
  have hpylint : pylint ∈ standard := by simp [standard]
  obtain ⟨resolved, kept, hresolved, -, -, -, htaken⟩ := locateRoot_of_collectFiles hpylint rfl hd hne
  obtain rfl := Except.ok.inj (hroot.symm.trans hresolved)
  have hlook : pylint.Lookable t root root {} := by
    refine ⟨⟨false, by decide +kernel⟩, ?_⟩
    rw [candidates_projectOf (by decide +kernel), List.forall_mem_singleton]
    have hsame : t.canonical (Path.rooted ["project", "main.py"]).toString =
        .ok (Path.rooted ["project", "main.py"]) := by decide +kernel
    intro p hp
    obtain rfl := Except.ok.inj (hsame.symm.trans hp)
    exact ⟨true, by decide +kernel⟩
  obtain ⟨-, -, hlimit⟩ := htaken hlook
  exact ⟨d, hd, hne, hlimit (by decide)⟩

/-- **A project is refused although its source is found**: it is larger than the usual limit, but not than the one
that the run is given. -/
theorem locateRoot_oversized :
    let t := projectOf "big.py" (.filler 10485761)
    let root := DiscoverOptions.projectRoot
    let limits : ResourceLimits := { maxFileBytes := 20971520 }
    t.IsSound ∧
      (∃ d, pylint.collectFiles t root (.standard 1) limits = .ok d ∧ d.paths = [Path.rooted ["project", "big.py"]]) ∧
      ∃ detail, pylint.locateRoot t root limits = .error (.problem ⟨.projectNotFound, detail⟩) := by
  intro t root limits
  have hroot : t.resolve root = .ok root := by decide +kernel
  refine ⟨⟨by decide, by decide, by decide, by decide⟩, ?_, _, (locateRoot_eq_problem rfl hroot).mpr ⟨rfl, ?_, ?_⟩⟩
  · exact collectFiles_projectOf (by decide +kernel) hroot (by decide +kernel) (by decide) (by decide)
  · decide +kernel
  · rw [candidates_projectOf (by decide +kernel), List.forall_mem_singleton]
    exact ⟨.tooLarge "big.py" 10485761 10485760, by decide +kernel⟩

end Analyzer

end Assay

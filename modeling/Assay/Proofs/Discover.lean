import Mathlib.Algebra.Ring.Int.Defs
import Assay.Discover
import Assay.Proofs.Files.Check
import Assay.Proofs.Files.Listing

/-!
# What a discovery returns

A discovery returns the longest beginning of the accepted files that stays within both caps, and records
a cut exactly if that is not all of them (`discover_spec`). It comes to an end unless its root cannot be
resolved or a candidate leads to a path that cannot be looked at; such a candidate ends it without a
result (`discover_long_name`).
-/

namespace Assay

open Files Files.Tree

namespace Budget

variable {b after : Budget} {size : Int}

/-- A charge within the limit is taken. -/
theorem charge_of_le (h : ∀ limit, b.limit = some limit → b.used + size ≤ limit) :
    b.charge size = .ok { b with used := b.used + size } := by
  unfold charge
  split
  · next limit hlimit => rw [if_pos (h limit hlimit)]
  · rfl

theorem charge_of_ok (h : b.charge size = .ok after) :
    (∀ limit, b.limit = some limit → b.used + size ≤ limit) ∧ after = { b with used := b.used + size } := by
  have hle : ∀ limit, b.limit = some limit → b.used + size ≤ limit := by
    intro limit hlimit
    by_contra hlarge
    rw [charge, hlimit] at h
    dsimp only at h
    rw [if_neg hlarge] at h
    split at h
    · cases h
    · cases h
  exact ⟨hle, Except.ok.inj (h.symm.trans (charge_of_le hle))⟩

/-- What is refused would exceed the limit. -/
theorem charge_of_problem {problem : Problem} (h : b.charge size = .error (.problem problem)) :
    problem.kind = .memoryCap ∧ ∃ limit, b.limit = some limit ∧ limit < b.used + size := by
  unfold charge at h
  split at h
  · next limit hlimit =>
    split at h
    · cases h
    · next hlarge =>
      split at h
      · obtain rfl := Failure.problem.inj (Except.error.inj h)
        exact ⟨rfl, limit, hlimit, Int.not_le.mp hlarge⟩
      · cases h
  · cases h

/-- A charge breaks off only where the limit cannot be written out. -/
theorem charge_ne_breach (h : IsWritableLimit b.limit) {cause : Breach} : b.charge size ≠ .error (.breach cause) := by
  unfold charge
  split
  · next limit hlimit =>
    rw [if_pos (h limit hlimit)]
    split <;> exact nofun
  · exact nofun

end Budget

namespace DiscoverOptions

variable {o : DiscoverOptions}

/-- The candidates that the checks let through, in the order of the walk. -/
def accepted (o : DiscoverOptions) (t : Tree) (root : Path) : List CheckedPath :=
  (o.candidates t root).filterMap fun p => (t.checkPath p.toString (o.policy root)).toOption

/-- How many bytes the files have together. -/
def totalSize (files : List CheckedPath) : Int := (files.map fun f => (f.size : Int)).sum

/-- The files stay within both caps: there are not too many of them, and no beginning of theirs is too
large. -/
def Admits (o : DiscoverOptions) (files : List CheckedPath) : Prop :=
  (files.length : Int) ≤ o.maxFiles ∧
    ∀ first, first <+: files → first ≠ [] → ∀ cap, o.maxTotalBytes = some cap → totalSize first ≤ cap

/-- What is found is made of the longest beginning of all accepted files that stays within the caps. -/
structure Keeps (o : DiscoverOptions) (all kept : List CheckedPath) (found : Discovered) : Prop where
  begins : kept <+: all
  admits : o.Admits kept
  longest : ∀ more, more <+: all → o.Admits more → more.length ≤ kept.length
  paths : found.paths = kept.map (·.canonical)
  totalBytes : found.totalBytes = totalSize kept
  uncut : found.cut = none ↔ kept = all
  /-- A cut is for the number of files if that is reached, and for their size otherwise. -/
  cut : ∀ cut, found.cut = some cut →
    if (kept.length : Int) = o.maxFiles then cut = .files o.maxFiles
    else ∃ problem, cut = .bytes problem ∧ problem.kind = .memoryCap

/-! ## Staying within the caps -/

theorem Admits.before {files fewer : List CheckedPath} (h : o.Admits files) (hfewer : fewer <+: files) :
    o.Admits fewer := by
  constructor
  · have := hfewer.length_le
    have := h.1
    omega
  · exact fun first hfirst => h.2 first (hfirst.trans hfewer)

/-- One more file stays within the caps if neither is reached. -/
theorem Admits.snoc {files : List CheckedPath} {f : CheckedPath} (h : o.Admits files)
    (hlength : (files.length : Int) < o.maxFiles)
    (hcap : ∀ cap, o.maxTotalBytes = some cap → totalSize (files ++ [f]) ≤ cap) :
    o.Admits (files ++ [f]) := by
  constructor
  · rw [List.length_append, List.length_singleton]
    omega
  · intro first hfirst hne cap hmax
    rcases List.prefix_concat_iff.mp hfirst with rfl | hfirst
    · exact hcap cap hmax
    · exact h.2 first hfirst hne cap hmax

@[simp] theorem totalSize_append (files : List CheckedPath) (f : CheckedPath) :
    totalSize (files ++ [f]) = totalSize files + f.size := by
  simp [totalSize]

/-- A beginning that is longer than what has been kept begins with the next file. -/
theorem next_begins {all kept more rest : List CheckedPath} {f : CheckedPath}
    (hall : all = kept ++ f :: rest) (hmore : more <+: all) (hlength : kept.length < more.length) :
    kept ++ [f] <+: more := by
  have hnext : kept ++ [f] <+: all := ⟨rest, by rw [hall]; simp⟩
  refine List.prefix_of_prefix_length_le hnext hmore ?_
  rw [List.length_append, List.length_singleton]
  omega

/-! ## Taking candidates -/

variable {check : Path → Except Failure CheckedPath}

/-- What has been found while the files `kept` have been taken. -/
structure Sofar (o : DiscoverOptions) (kept : List CheckedPath) (budget : Budget) (found : Discovered) :
    Prop where
  admits : o.Admits kept
  budget : budget = ⟨o.maxTotalBytes, totalSize kept⟩
  paths : found.paths = kept.map (·.canonical)
  totalBytes : found.totalBytes = totalSize kept
  uncut : found.cut = none

/-- Stopping before the next file keeps the longest beginning if no longer one stays within the caps. -/
theorem Sofar.stop {kept rest : List CheckedPath} {f : CheckedPath} {budget : Budget}
    {found : Discovered} (h : o.Sofar kept budget found) (hfull : ¬ o.Admits (kept ++ [f])) {cut : Cut}
    (hcut : if (kept.length : Int) = o.maxFiles then cut = .files o.maxFiles
      else ∃ problem, cut = .bytes problem ∧ problem.kind = .memoryCap) :
    o.Keeps (kept ++ f :: rest) kept { found with cut := some cut } where
  begins := List.prefix_append _ _
  admits := h.admits
  longest := by
    intro more hmore hadmits
    by_contra hlength
    exact hfull (hadmits.before (next_begins rfl hmore (Nat.lt_of_not_le hlength)))
  paths := h.paths
  totalBytes := h.totalBytes
  uncut := by
    constructor
    · intro hnone
      simp at hnone
    · intro heq
      have := congrArg List.length heq
      simp at this
  cut := by
    intro other hother
    obtain rfl := Option.some.inj hother
    exact hcut

/-- No file is taken beyond the number of files. -/
theorem not_admits_of_length {kept : List CheckedPath} {f : CheckedPath}
    (h : o.maxFiles ≤ (kept.length : Int)) : ¬ o.Admits (kept ++ [f]) := by
  intro hadmits
  have hmost := hadmits.1
  rw [List.length_append, List.length_singleton] at hmost
  omega

/-- No file is taken that does not fit in. -/
theorem not_admits_of_size {kept : List CheckedPath} {f : CheckedPath} {cap : Int}
    (hcap : o.maxTotalBytes = some cap) (hlarge : cap < totalSize kept + f.size) :
    ¬ o.Admits (kept ++ [f]) := by
  intro hadmits
  have hmost := hadmits.2 (kept ++ [f]) (List.prefix_refl _) (by simp) cap hcap
  rw [totalSize_append] at hmost
  exact absurd hmost (Int.not_le.mpr hlarge)

/-- A file that is charged for is taken. -/
theorem Sofar.take {kept : List CheckedPath} {f : CheckedPath} {budget after : Budget}
    {found : Discovered} (h : o.Sofar kept budget found) (hless : (kept.length : Int) < o.maxFiles)
    (hcharge : budget.charge f.size = .ok after) :
    o.Sofar (kept ++ [f]) after
      { found with paths := found.paths ++ [f.canonical], totalBytes := after.used } := by
  rw [h.budget] at hcharge
  obtain ⟨hcap, rfl⟩ := Budget.charge_of_ok hcharge
  exact
    { admits := h.admits.snoc hless (by simpa using hcap)
      budget := by rw [totalSize_append]
      paths := by simp [h.paths]
      totalBytes := by rw [totalSize_append]
      uncut := h.uncut }

/-- **One candidate** is skipped, since a check refuses it, or it is taken, unless taking stops in front of it
because of the number of files or because of their sizes. -/
theorem collect_cons_eq_ok {p : Path} {candidates : List Path} {budget : Budget} {found d : Discovered} :
    o.collect check budget found (p :: candidates) = .ok d ↔
      (∃ problem, check p = .error (.problem problem) ∧ problem.isInput = true ∧
        o.collect check budget { found with skipped := found.skipped + 1 } candidates = .ok d) ∨
      ∃ f, check p = .ok f ∧
        ((o.maxFiles ≤ found.paths.length ∧ { found with cut := some (.files o.maxFiles) } = d) ∨
          (found.paths.length < o.maxFiles ∧
            ((∃ problem, budget.charge f.size = .error (.problem problem) ∧
                { found with cut := some (.bytes problem) } = d) ∨
              ∃ after, budget.charge f.size = .ok after ∧ o.collect check after
                { found with paths := found.paths ++ [f.canonical], totalBytes := after.used } candidates = .ok d))) := by
  rw [collect]
  cases hp : check p with
  | error failure =>
      cases failure with
      | breach b => simp
      | problem problem =>
          by_cases hinput : problem.isInput = true
          · simp [hinput]
          · simp [hinput]
  | ok f =>
      by_cases hfiles : o.maxFiles ≤ (found.paths.length : Int)
      · simp [hfiles, Int.not_lt.mpr hfiles]
      · cases hcharge : budget.charge f.size with
        | error failure => cases failure <;> simp [hfiles, Int.not_le.mp hfiles, hcharge]
        | ok after => simp [hfiles, Int.not_le.mp hfiles, hcharge]

/-- **Taking candidates keeps the longest beginning.** The induction is on the candidates; what has been
kept grows along it. -/
theorem collect_keeps {kept : List CheckedPath} {budget : Budget} {found d : Discovered}
    {candidates : List Path} (hsofar : o.Sofar kept budget found)
    (h : o.collect check budget found candidates = .ok d) :
    ∃ files, o.Keeps (kept ++ candidates.filterMap fun p => (check p).toOption) files d := by
  induction candidates generalizing kept budget found with
  | nil =>
      obtain rfl := Except.ok.inj h
      refine ⟨kept, by simp, hsofar.admits, ?_, hsofar.paths, hsofar.totalBytes, ?_, ?_⟩
      · intro more hmore _
        simpa using hmore.length_le
      · simp [hsofar.uncut]
      · simp [hsofar.uncut]
  | cons p candidates ih =>
      have hlength : found.paths.length = kept.length := by rw [hsofar.paths, List.length_map]
      rcases collect_cons_eq_ok.mp h with ⟨problem, hp, -, h⟩ | ⟨f, hp, hf⟩
      · rw [List.filterMap_cons_none (by rw [hp]; rfl)]
        have hnext : o.Sofar kept budget { found with skipped := found.skipped + 1 } :=
          ⟨hsofar.admits, hsofar.budget, hsofar.paths, hsofar.totalBytes, hsofar.uncut⟩
        exact ih hnext h
      · rw [List.filterMap_cons_some (b := f) (by rw [hp]; rfl)]
        rw [hlength] at hf
        rcases hf with ⟨hfiles, rfl⟩ | ⟨hless, ⟨problem, hcharge, rfl⟩ | ⟨after, hcharge, h⟩⟩
        · have hcount : (kept.length : Int) = o.maxFiles := by
            have := hsofar.admits.1
            omega
          exact ⟨kept, hsofar.stop (not_admits_of_length hfiles) (by rw [if_pos hcount])⟩
        · rw [hsofar.budget] at hcharge
          obtain ⟨hkind, cap, hcap, hlarge⟩ := Budget.charge_of_problem hcharge
          refine ⟨kept, hsofar.stop (not_admits_of_size hcap hlarge) ?_⟩
          rw [if_neg (by omega)]
          exact ⟨problem, rfl, hkind⟩
        · have hkeeps := ih (hsofar.take hless hcharge) h
          rwa [List.append_assoc, List.singleton_append] at hkeeps

/-- Taking candidates comes to an end if every check comes to a decision and the limit can be written out. -/
theorem collect_ends {budget : Budget} {found : Discovered} {candidates : List Path}
    (hlimit : IsWritableLimit budget.limit) (h : ∀ p ∈ candidates, Decides (check p)) :
    ∃ d, o.collect check budget found candidates = .ok d := by
  induction candidates generalizing budget found with
  | nil => exact ⟨found, rfl⟩
  | cons p candidates ih =>
      obtain ⟨hp, hrest⟩ := List.forall_mem_cons.mp h
      rw [collect]
      rcases hp with ⟨f, hf⟩ | ⟨fault, hfault⟩
      · rw [hf]
        dsimp only
        split
        · exact ⟨_, rfl⟩
        · cases hcharge : budget.charge f.size with
          | error failure =>
              cases failure with
              | problem problem => exact ⟨_, rfl⟩
              | breach cause => exact absurd hcharge (Budget.charge_ne_breach hlimit)
          | ok after =>
              obtain ⟨-, rfl⟩ := Budget.charge_of_ok hcharge
              exact ih hlimit hrest
      · rw [hfault, PathFault.failure]
        dsimp only
        rw [if_pos fault.problem_isInput]
        exact ih hlimit hrest

/-! ## Discoveries -/

variable {t : Tree} {root : Path} {d : Discovered}

/-- A discovery collects from the candidates below the place that its root leads to. -/
theorem discover_of_root {place : Path} (hfiles : ¬ o.maxFiles ≤ 0)
    (hroot : t.resolveOrFail root = .ok place) :
    o.discover t root = o.collect (fun p => t.checkPath p.toString (o.policy place))
      ⟨o.maxTotalBytes, 0⟩ {} (o.candidates t place) := by
  rw [discover, if_neg hfiles, hroot]
  rfl

/-- The only candidate is discovered if it passes and the caps leave room for it. -/
theorem discover_of_candidate {place p q : Path} {size : Nat} (hfiles : 1 ≤ o.maxFiles)
    (hroot : t.resolveOrFail root = .ok place) (hcandidate : o.candidates t place = [p])
    (hcheck : t.checkPath p.toString (o.policy place) = .ok ⟨q, size⟩)
    (hcap : ∀ cap ∈ o.maxTotalBytes, (size : Int) ≤ cap) :
    ∃ d, o.discover t root = .ok d ∧ d.paths = [q] := by
  have hcharge : Budget.charge ⟨o.maxTotalBytes, 0⟩ (size : Int) = .ok _ :=
    Budget.charge_of_le fun cap h => by simpa using hcap cap h
  rw [discover_of_root (by omega) hroot, hcandidate, collect, hcheck]
  dsimp only
  rw [if_neg (by rw [List.length_nil]; omega), hcharge]
  exact ⟨_, rfl, rfl⟩

theorem discover_eq_ok (hfiles : 1 ≤ o.maxFiles) (h : o.discover t root = .ok d) :
    ∃ resolved kept, t.resolve root = .ok resolved ∧ o.Keeps (o.accepted t resolved) kept d := by
  obtain ⟨resolved, hresolved⟩ : ∃ resolved, t.resolveOrFail root = .ok resolved := by
    rw [discover, if_neg (by omega)] at h
    obtain ⟨resolved, hresolved, -⟩ := bind_eq_ok.mp h
    exact ⟨resolved, hresolved⟩
  rw [discover_of_root (by omega) hresolved] at h
  have hsofar : o.Sofar [] ⟨o.maxTotalBytes, 0⟩ {} :=
    { admits := ⟨by simp; omega, by simp⟩
      budget := rfl
      paths := rfl
      totalBytes := rfl
      uncut := rfl }
  obtain ⟨kept, hkept⟩ := collect_keeps hsofar h
  exact ⟨resolved, kept, resolveOrFail_eq_ok.mp hresolved, hkept⟩

/-- What a discovery is made of: some of the candidates in the order of the walk, each with what it passed
the checks as. -/
structure Collects (o : DiscoverOptions) (t : Tree) (root : Path) (kept : List (Path × CheckedPath))
    (d : Discovered) : Prop where
  candidates : (kept.map Prod.fst).Sublist (o.candidates t root)
  passed : ∀ e ∈ kept, t.checkPath e.1.toString (o.policy root) = .ok e.2
  paths : d.paths = kept.map fun e => e.2.canonical
  totalBytes : d.totalBytes = totalSize (kept.map Prod.snd)

/-- Some of what a list is mapped to comes from different places of the list. -/
theorem exists_sources {α β : Type} {f : α → Option β} {items : List α} {kept : List β}
    (h : kept.Sublist (items.filterMap f)) :
    ∃ pairs : List (α × β), pairs.map Prod.snd = kept ∧ (pairs.map Prod.fst).Sublist items ∧
      ∀ e ∈ pairs, f e.1 = some e.2 := by
  induction items generalizing kept with
  | nil =>
      obtain rfl := List.sublist_nil.mp h
      exact ⟨[], rfl, .slnil, nofun⟩
  | cons a items ih =>
      cases hf : f a with
      | none =>
          rw [List.filterMap_cons_none hf] at h
          obtain ⟨pairs, hkept, hsub, hpairs⟩ := ih h
          exact ⟨pairs, hkept, hsub.cons a, hpairs⟩
      -- what the item is mapped to is left out, or it is the first to be kept
      | some b =>
          rw [List.filterMap_cons_some hf] at h
          cases h with
          | cons _ h =>
              obtain ⟨pairs, hkept, hsub, hpairs⟩ := ih h
              exact ⟨pairs, hkept, hsub.cons a, hpairs⟩
          | cons_cons _ h =>
              obtain ⟨pairs, rfl, hsub, hpairs⟩ := ih h
              exact ⟨(a, b) :: pairs, rfl, hsub.cons_cons a, List.forall_mem_cons.mpr ⟨hf, hpairs⟩⟩

/-- **Every discovered path comes from a candidate of its own.** -/
theorem discover_collects (hfiles : 1 ≤ o.maxFiles) (h : o.discover t root = .ok d) :
    ∃ resolved kept, t.resolve root = .ok resolved ∧ o.Collects t resolved kept d := by
  obtain ⟨resolved, files, hresolved, hkept⟩ := discover_eq_ok hfiles h
  obtain ⟨kept, rfl, hsub, hpassed⟩ := exists_sources hkept.begins.sublist
  refine ⟨resolved, kept, hresolved, hsub, ?_, ?_, hkept.totalBytes⟩
  · intro e he
    have hpass := hpassed e he
    cases hcheck : t.checkPath e.1.toString (o.policy resolved) with
    | ok f =>
        rw [hcheck] at hpass
        exact congrArg Except.ok (Option.some.inj hpass)
    | error failure => simp [hcheck, Except.toOption] at hpass
  · rw [hkept.paths, List.map_map]
    rfl

/-- The paths are the candidates below a root: what a walk from where it leads meets, in directories that are
not denied, not hidden and not too deep, as far as its ending and the rule for tests select it, in the order
of the walk. -/
def Walks (o : DiscoverOptions) (t : Tree) (root : Path) (paths : List Path) : Prop :=
  paths.Pairwise Before ∧ ∀ p, p ∈ paths ↔ o.selects root p = true ∧
    ∃ place dirs name m, t.find true root = .ok place ∧ p = root.below (dirs ++ [name]) ∧
      dirs.length ≤ o.maxDepth.toNat ∧ (∀ d ∈ dirs, Language.entersDirectory o.denied d = true) ∧
      (root.below dirs).Fits ∧ t.top.at? (place ++ dirs ++ [name]) = some m ∧ t.countsAsDirectory p m = false

theorem candidates_walks (hsound : t.IsSound) : o.Walks t root (o.candidates t root) := by
  refine ⟨(pairwise_files hsound).filter _, fun p => ?_⟩
  rw [candidates, List.mem_filter, mem_files hsound, and_comm]

/-- Where there are candidates, the root leads to a directory. -/
theorem directory_of_candidate (hsound : t.IsSound) {c : Path} (hc : c ∈ o.candidates t root) :
    ∃ entries, t.stat root = .ok (.directory entries) := by
  obtain ⟨-, place, dirs, name, m, hfind, -, -, -, -, hm, -⟩ := (candidates_walks hsound).2 c |>.mp hc
  rw [List.append_assoc, Node.at?_append] at hm
  obtain ⟨n, hn, hm⟩ := Option.bind_eq_some_iff.mp hm
  obtain ⟨entries, rfl⟩ := directory_of_at? hm
  exact ⟨entries, stat_eq_ok.mpr ⟨place, hfind, hn⟩⟩

/-- A candidate that passes the checks leads to a path below what the root resolves to once more, through no
denied directory. -/
theorem relativeTo?_of_candidate {c : Path} {checked : CheckedPath}
    (hcheck : t.checkPath c.toString (o.policy root) = .ok checked) :
    ∃ base parts, t.resolve root = .ok base ∧ checked.canonical.relativeTo? base = some parts ∧
      ∀ name ∈ parts, name ∉ o.denied := by
  obtain ⟨base, parts, hbase, hanchor, hparts, hdenied⟩ := (checkPath_passes hcheck).root root rfl
  exact ⟨base, parts, hbase, Path.relativeTo?_eq_some.mpr ⟨hanchor, hparts⟩, hdenied⟩

/-- The limits for the size of a file and for all sizes together can be written out. -/
def HasWritableLimits (o : DiscoverOptions) : Prop :=
  Decimal.isWritable o.maxFileBytes = true ∧ IsWritableLimit o.maxTotalBytes

theorem HasWritableLimits.file (h : o.HasWritableLimits) : IsWritableLimit (o.policy root).maxFileBytes := by
  rintro _ ⟨⟩
  exact h.1

/-- The check of a candidate comes to a decision if the root can be resolved once more and what the candidate
leads to can be looked at. -/
theorem decides_of_candidate {c base : Path} (hlimits : o.HasWritableLimits) (hbase : t.resolveBase root = .ok base)
    (hlook : ∀ p, t.canonical c.toString = .ok p → ∃ present, t.exists? p = .ok present) :
    Decides (t.checkPath c.toString (o.policy root)) := by
  refine checkPath_decides (fun other hother => ?_) hlimits.file hlook
  obtain rfl : other = root := by simpa [policy] using hother
  exact ⟨base, hbase⟩

/-- A discovery comes to an end if its limits can be written out, its root can be followed to its end and the
candidates lead to paths that can be looked at. -/
theorem discover_ends (hlimits : o.HasWritableLimits) (hsound : t.IsSound) {n : Nat} {place : Place}
    (hroot : t.Follows n (t.startOf root) root.parts place)
    (hlook : ∀ p ∈ o.candidates t (Path.rooted place), ∀ c, t.canonical p.toString = .ok c →
      ∃ present, t.exists? c = .ok present) :
    ∃ d, o.discover t root = .ok d := by
  by_cases hfiles : o.maxFiles ≤ 0
  · exact ⟨{}, by rw [discover, if_pos hfiles]; rfl⟩
  · rw [discover_of_root hfiles (resolveOrFail_eq_ok.mpr (resolve_of_follows hsound hroot))]
    refine collect_ends hlimits.2 fun p hp => ?_
    -- where there is a candidate to check, the root is a directory, so it can be written
    obtain ⟨entries, hentries⟩ := directory_of_candidate hsound hp
    have hreal := hroot.isReal hsound (hsound.isReal_startOf root)
    have hat := ((stat_rooted hsound hreal.names hreal.linkFree).mp hentries).2
    have hbase := resolveBase_of_isReal hsound hreal fun c hc =>
      isComponent_of_isEntryName ((Node.isSound_of_at? hsound.top hat).2 c hc)
    exact decides_of_candidate hlimits hbase (hlook p hp)

/-- A discovery depends only on what stands where. -/
theorem discover_of_sameContent {t' : Tree} (h : t.SameContent t') :
    o.discover t' root = o.discover t root := by
  unfold discover candidates
  simp only [h.resolveOrFail_eq, h.files_eq, h.checkPath_eq]

/-- Everything is the same but for the caps, and neither cap is narrower. -/
def WidensTo (o wide : DiscoverOptions) : Prop :=
  ∃ maxFiles maxTotalBytes, wide = { o with maxFiles, maxTotalBytes } ∧ o.maxFiles ≤ maxFiles ∧
    ∀ cap, maxTotalBytes = some cap → ∃ narrow, o.maxTotalBytes = some narrow ∧ narrow ≤ cap

theorem WidensTo.admits {wide : DiscoverOptions} {files : List CheckedPath} (h : o.WidensTo wide)
    (hfiles : o.Admits files) : wide.Admits files := by
  obtain ⟨maxFiles, maxTotalBytes, rfl, hmax, hcap⟩ := h
  refine ⟨Int.le_trans hfiles.1 hmax, ?_⟩
  intro first hfirst hne cap heq
  obtain ⟨narrow, hnarrow, hle⟩ := hcap cap heq
  exact Int.le_trans (hfiles.2 first hfirst hne narrow hnarrow) hle

/-- Wider caps only add files at the end. -/
theorem Keeps.paths_begin {wide : DiscoverOptions} {all kept more : List CheckedPath}
    {d d' : Discovered} (hwide : o.WidensTo wide) (h : o.Keeps all kept d)
    (h' : wide.Keeps all more d') : d.paths <+: d'.paths := by
  rw [h.paths, h'.paths]
  have hlength := h'.longest kept h.begins (hwide.admits h.admits)
  exact (List.prefix_of_prefix_length_le h.begins h'.begins hlength).map _

/-- **What a discovery returns.** The candidates are what the walk meets, in its order. Of those that the
checks let through, a discovery that comes to an end returns the longest beginning that stays within both
caps, and it comes to an end unless its root runs into a loop, a candidate leads to a path that cannot be looked
at, or a limit has too many digits to be written out. The order in which directories list their entries does not matter, and wider caps only add
files at the end. -/
theorem discover_spec (hfiles : 1 ≤ o.maxFiles) (hsound : t.IsSound) :
    (∀ resolved, o.Walks t resolved (o.candidates t resolved)) ∧
    (∀ d, o.discover t root = .ok d → ∃ resolved kept, t.resolve root = .ok resolved ∧
      o.Keeps (o.accepted t resolved) kept d) ∧
    (∀ n place, o.HasWritableLimits → t.Follows n (t.startOf root) root.parts place →
      (∀ p ∈ o.candidates t (Path.rooted place), ∀ c, t.canonical p.toString = .ok c →
        ∃ present, t.exists? c = .ok present) →
      ∃ d, o.discover t root = .ok d) ∧
    (∀ t', t.SameContent t' → o.discover t' root = o.discover t root) ∧
    ∀ wide, o.WidensTo wide → ∀ d d', o.discover t root = .ok d → wide.discover t root = .ok d' →
      d.paths <+: d'.paths := by
  refine ⟨fun _ => candidates_walks hsound, fun d => discover_eq_ok hfiles,
    fun n place hlimits => discover_ends hlimits hsound, fun t' => discover_of_sameContent, ?_⟩
  intro wide hwide d d' hd hd'
  obtain ⟨resolved, kept, hresolved, hkept⟩ := discover_eq_ok hfiles hd
  have hwider : 1 ≤ wide.maxFiles := by
    obtain ⟨maxFiles, maxTotalBytes, rfl, hmax, -⟩ := hwide
    exact Int.le_trans hfiles hmax
  obtain ⟨resolved', more, hresolved', hmore⟩ := discover_eq_ok hwider hd'
  obtain rfl := Except.ok.inj (hresolved.symm.trans hresolved')
  have hsame : wide.accepted t resolved = o.accepted t resolved := by
    obtain ⟨maxFiles, maxTotalBytes, rfl, -⟩ := hwide
    rfl
  rw [hsame] at hmore
  exact hkept.paths_begin hwide hmore

/-- The root of the project beside what is not its own. -/
def projectRoot : Path := Path.rooted ["project"]

/-- The walk of a project without subdirectories whose files are listed in order. -/
theorem files_besideOutside {entries : List (String × Node)} {rule : WalkRule}
    (hsorted : entries.Pairwise fun e d => decide (e.1 ≤ d.1) = true)
    (hentries : ∀ e ∈ entries,
      (besideOutside entries).countsAsDirectory (projectRoot.child e.1) e.2 = false) :
    (besideOutside entries).files rule projectRoot = entries.map fun e => projectRoot.child e.1 := by
  have hnames : (besideOutside entries).fileNames projectRoot entries = entries.map (·.1) := by
    have hall : entries.filter (fun e =>
        !(besideOutside entries).countsAsDirectory (projectRoot.child e.1) e.2) = entries :=
      List.filter_eq_self.mpr fun e he => by
        rw [hentries e he]
        rfl
    rw [fileNames, hall]
    exact List.mergeSort_of_pairwise (List.pairwise_map.mpr hsorted)
  have hshallow : ∀ e ∈ entries, e.2.isDirectory = true → rule.enters e.1 = true → e.2 = .directory [] := by
    intro e he hdirectory _
    have hfile := hentries e he
    cases hn : e.2 with
    | directory below => simp [hn, countsAsDirectory] at hfile
    | _ => simp [hn, Node.isDirectory] at hdirectory
  have hroot : (besideOutside entries).stat projectRoot = .ok (.directory entries) := rfl
  rw [files_of_shallow hroot hshallow, hnames, List.map_map]
  rfl

/-- The C files of a project, one of them at most. -/
def oneOfC : DiscoverOptions := { extensions := [".c"], maxFiles := 1 }

/-- A project of two files, only one of which is returned. -/
theorem discover_spec_one :
    let t := besideOutside [("a.c", .file (.text "xyz") false), ("b.c", .file (.text "x") false)]
    t.IsSound ∧ ∃ d, oneOfC.discover t projectRoot = .ok d ∧
      d.paths = [Path.rooted ["project", "a.c"]] ∧ d.totalBytes = 3 ∧ d.cut = some (.files 1) := by
  intro t
  have hsound : t.IsSound := ⟨by decide, by decide, by decide, by decide⟩
  have hwalk : oneOfC.candidates t projectRoot =
      [Path.rooted ["project", "a.c"], Path.rooted ["project", "b.c"]] := by
    unfold candidates
    rw [files_besideOutside (by decide +kernel) (by decide)]
    decide +kernel
  have haccepted : oneOfC.accepted t projectRoot =
      [⟨Path.rooted ["project", "a.c"], 3⟩, ⟨Path.rooted ["project", "b.c"], 1⟩] := by
    unfold accepted
    rw [hwalk]
    decide +kernel
  have hfollows : t.Follows 0 [] projectRoot.parts ["project"] := .down (by decide) (by decide) .done
  obtain ⟨-, hkeeps, hends, -⟩ := @discover_spec oneOfC t projectRoot (by decide) hsound
  have hlook : ∀ p ∈ oneOfC.candidates t projectRoot, ∀ c, t.canonical p.toString = .ok c →
      ∃ present, t.exists? c = .ok present := by
    rw [hwalk]
    intro p hp c hc
    have hsame : ∀ p ∈ [Path.rooted ["project", "a.c"], Path.rooted ["project", "b.c"]],
        t.canonical p.toString = .ok p ∧ t.exists? p = .ok true := by decide +kernel
    obtain ⟨hcanonical, hexists⟩ := hsame p hp
    obtain rfl := Except.ok.inj (hcanonical.symm.trans hc)
    exact ⟨true, hexists⟩
  obtain ⟨d, hd⟩ := hends 0 ["project"] ⟨by decide +kernel, nofun⟩ hfollows hlook
  obtain ⟨resolved, kept, hresolved, hkept⟩ := hkeeps d hd
  obtain rfl := Except.ok.inj ((resolve_of_follows hsound hfollows).symm.trans hresolved)
  rw [show Path.rooted ["project"] = projectRoot from rfl, haccepted] at hkept
  -- one file is kept, since it stays within the caps and two would not
  have hone : kept.length = 1 := by
    have hmost := hkept.admits.1
    have hleast := hkept.longest [⟨Path.rooted ["project", "a.c"], 3⟩] ⟨_, rfl⟩
      ⟨by decide, fun _ _ _ cap hcap => by simp [oneOfC] at hcap⟩
    simp only [oneOfC, List.length_singleton] at hmost hleast
    omega
  have hfirst : kept = [⟨Path.rooted ["project", "a.c"], 3⟩] := by
    rw [List.prefix_iff_eq_take.mp hkept.begins, hone]
    rfl
  subst hfirst
  refine ⟨hsound, d, hd, hkept.paths, hkept.totalBytes, ?_⟩
  cases hcut : d.cut with
  | none =>
      have hall := hkept.uncut.mp hcut
      simp at hall
  | some cut =>
      have hfiles := hkept.cut cut hcut
      rw [if_pos (by decide)] at hfiles
      rw [hfiles]
      rfl

/-- **A link to a name that is too long ends a discovery without a result**, although the file beside it
is accepted. -/
theorem discover_long_name :
    let long := String.ofList (List.replicate 256 'x')
    let t := besideOutside [("a.c", .file (.text "xyz") false), ("b.c", .link long)]
    t.IsSound ∧ t.resolve projectRoot = .ok projectRoot ∧
      oneOfC.accepted t projectRoot = [⟨Path.rooted ["project", "a.c"], 3⟩] ∧
      oneOfC.discover t projectRoot = .error (.breach .fileSystem) := by
  intro long t
  have hchars : long.toList = List.replicate 256 'x' := String.toList_ofList
  have hsplit : Text.splitOn '/' long = [long] := by
    have hslash : '/' ∉ long.toList := by
      rw [hchars]
      exact fun h => absurd (List.eq_of_mem_replicate h) (by decide)
    rw [Text.splitOn, Text.splitFrom_of_not_mem hslash]
    simp
  have hsound : t.IsSound := by
    refine ⟨?_, by decide, by decide, by decide⟩
    simp only [t, besideOutside, Node.isSound, Node.areSound, hchars]
    decide +kernel
  have hlong : IsName long ∧ maxNameBytes < long.utf8ByteSize := by decide +kernel
  have hstart : linkStart ["project"] long = ["project"] := by
    rw [linkStart, if_neg]
    rw [Text.hasStart, hchars]
    decide
  -- the lookup goes from the link to its target, which is too long
  have hstat : t.stat (Path.rooted ["project", "b.c"]) = .error .nameTooLong := by
    have hend : t.locate true 39 (linkStart ["project"] long) (Text.splitOn '/' long ++ []) =
        .error .nameTooLong := by
      rw [hstart, hsplit]
      show t.walkTo true (t.locate true 38) ["project"] [long] = _
      rw [walkTo]
      show (if _ then _ else if _ then _ else if maxNameBytes < long.utf8ByteSize then _ else _) = _
      rw [if_neg hlong.1.not_skip, if_neg hlong.1.not_up, if_pos hlong.2]
    have hfind : t.find true (Path.rooted ["project", "b.c"]) =
        t.locate true 39 (linkStart ["project"] long) (Text.splitOn '/' long ++ []) := by
      rw [find, if_neg (by decide +kernel)]
      show t.walkTo true (t.locate true 39) [] ["project", "b.c"] = _
      rw [walkTo_down rfl (by decide) (by decide) rfl]
      exact walkTo_link rfl (by decide) (by decide) rfl hlong.1.1
    rw [stat, hfind, hend]
  have hfile : t.isDirectory (projectRoot.child "b.c") = false := by
    show t.isDirectory (Path.rooted ["project", "b.c"]) = false
    rw [Tree.isDirectory, isDirectory?, test, hstat]
    rfl
  have hwalk : oneOfC.candidates t projectRoot =
      [Path.rooted ["project", "a.c"], Path.rooted ["project", "b.c"]] := by
    unfold candidates
    rw [files_besideOutside (by decide +kernel) (by simpa [countsAsDirectory] using hfile)]
    decide +kernel
  have hfirst : t.checkPath (Path.rooted ["project", "a.c"]).toString (oneOfC.policy projectRoot) =
      .ok ⟨Path.rooted ["project", "a.c"], 3⟩ := by decide +kernel
  have hsecond : t.checkPath (Path.rooted ["project", "b.c"]).toString (oneOfC.policy projectRoot) =
      .error (.breach .fileSystem) := by
    have htarget : t.Follows 0 (linkStart ["project"] long) (Text.splitOn '/' long)
        ["project", long] := by
      rw [hstart, hsplit]
      exact .down hlong.1 (by decide +kernel) .done
    have hlink : t.target? (["project"] ++ ["b.c"]) = some long := by decide +kernel
    have hfollows : t.Follows 1 [] (Path.rooted ["project", "b.c"]).parts ["project", long] :=
      .down (by decide) (by decide) (.link (by decide) (by decide +kernel) hlink htarget .done)
    have hcanonical : t.canonical (Path.rooted ["project", "b.c"]).toString =
        .ok (Path.rooted ["project", long]) := by
      have hpath : Path.ofString (Path.rooted ["project", "b.c"]).toString =
          Path.rooted ["project", "b.c"] := by decide +kernel
      rw [canonical, hpath]
      exact resolveOrFail_eq_ok.mpr (resolve_of_follows hsound hfollows)
    rw [checkPath_of_canonical (by decide +kernel) hcanonical]
    decide +kernel
  refine ⟨hsound, by decide +kernel, ?_, ?_⟩
  · simp [accepted, hwalk, hfirst, hsecond, Except.toOption]
  · have hroot : t.resolveOrFail projectRoot = .ok projectRoot := by decide +kernel
    have hcollect {check : Path → Except Failure CheckedPath} {p q : Path} {f : CheckedPath}
        (hp : check p = .ok f) (hq : check q = .error (.breach .fileSystem)) :
        oneOfC.collect check ⟨none, 0⟩ {} [p, q] = .error (.breach .fileSystem) := by
      simp [collect, hp, hq, oneOfC, Budget.charge]
    rw [discover_of_root (by decide) hroot, hwalk]
    exact hcollect hfirst hsecond

end DiscoverOptions

end Assay

import Assay.Language
import Assay.Proofs.Files.Decision
import Assay.Proofs.Files.Visit
import Assay.Proofs.Outcome

/-!
# Detecting languages

A language is detected exactly if one of its markers is a file in the root, or one of its sources lies not
too deep below it in directories that are neither denied nor hidden (`detect_spec`). A search stops as soon
as it has found every language, which changes nothing about what it finds (`Search.run_eq_foldl`): a
language is found on a search if it was found before it, or if a file that it owns is visited
(`Search.mem_found_run`).
-/

namespace Assay.Language

open Files Files.Tree

variable {t : Tree} {root : Path} {l : Language}

theorem mem_all (l : Language) : l ∈ all := by cases l <;> decide

/-! ## Markers -/

/-- A marker of the language is a regular file in the root. -/
def IsMarked (t : Tree) (root : Path) (l : Language) : Prop :=
  ∃ name ∈ l.markers, t.isFile? (root.child name) = .ok true

instance : Decidable (IsMarked t root l) := inferInstanceAs (Decidable (∃ name ∈ l.markers, _))

/-- Every name that marks a project can be looked at in its root. -/
def Looks (t : Tree) (root : Path) : Prop :=
  ∀ l : Language, ∀ name ∈ l.markers, ∃ present, t.isFile? (root.child name) = .ok present

theorem anyFile_ok {names : List String}
    (h : ∀ name ∈ names, ∃ present, t.isFile? (root.child name) = .ok present) :
    ∃ found, anyFile t root names = .ok found := by
  induction names with
  | nil => exact ⟨false, rfl⟩
  | cons name names ih =>
      obtain ⟨⟨present, hpresent⟩, hrest⟩ := List.forall_mem_cons.mp h
      rw [anyFile, hpresent]
      cases present with
      | true => exact ⟨true, rfl⟩
      | false => exact ih hrest

theorem anyFile_eq_ok {names : List String} {found : Bool} (h : anyFile t root names = .ok found) :
    found = true ↔ ∃ name ∈ names, t.isFile? (root.child name) = .ok true := by
  induction names with
  | nil =>
      obtain rfl := Except.ok.inj h
      simp
  | cons name names ih =>
      rw [anyFile] at h
      rw [List.exists_mem_cons_iff]
      cases hname : t.isFile? (root.child name) with
      | error fault => simp [hname] at h
      | ok present =>
          rw [hname] at h
          cases present with
          | true =>
              obtain rfl := Except.ok.inj h
              simp
          | false => simpa using ih h

theorem marked_ok (h : Looks t root) (languages : List Language) :
    ∃ found, marked t root languages = .ok found := by
  induction languages with
  | nil => exact ⟨[], rfl⟩
  | cons l languages ih =>
      obtain ⟨here, hhere⟩ := anyFile_ok (h l)
      obtain ⟨found, hfound⟩ := ih
      rw [marked, hhere, hfound]
      exact ⟨_, rfl⟩

/-- The languages that a marker stands for are those that have one in the root. -/
theorem mem_marked {languages found : List Language} (h : marked t root languages = .ok found) :
    l ∈ found ↔ l ∈ languages ∧ IsMarked t root l := by
  induction languages generalizing found with
  | nil =>
      obtain rfl := Except.ok.inj h
      simp
  | cons first languages ih =>
      obtain ⟨here, hhere, h⟩ := bind_eq_ok.mp h
      obtain ⟨others, hothers, h⟩ := bind_eq_ok.mp h
      have hfirst : here = true ↔ IsMarked t root first := anyFile_eq_ok hhere
      rw [← pure_eq_ok.mp h]
      cases here with
      | true =>
          have hmarked := hfirst.mp rfl
          rw [if_pos rfl, List.mem_cons, ih hothers, List.mem_cons]
          constructor
          · rintro (rfl | ⟨hl, hl'⟩)
            · exact ⟨.inl rfl, hmarked⟩
            · exact ⟨.inr hl, hl'⟩
          · rintro ⟨rfl | hl, hl'⟩
            · exact .inl rfl
            · exact .inr ⟨hl, hl'⟩
      | false =>
          have hunmarked : ¬ IsMarked t root first := fun h => nomatch hfirst.mpr h
          rw [if_neg (by decide), ih hothers, List.mem_cons]
          constructor
          · exact fun ⟨hl, hl'⟩ => ⟨.inr hl, hl'⟩
          · rintro ⟨rfl | hl, hl'⟩
            · exact absurd hl' hunmarked
            · exact ⟨hl, hl'⟩

/-! ## Searches -/

/-- Files of this name are written in the language. -/
def Owns (l : Language) (name : String) : Prop := Text.lower (Path.suffixOf name) ∈ l.extensions

namespace Search

variable {s : Search}

/-- Of the languages that are asked for an ending, those that own it are found. -/
theorem mem_found_foldl (suffix : String) (languages : List Language) :
    l ∈ (languages.foldl (fun s l => if l.extensions.contains suffix then s.take l else s) s).found ↔
      l ∈ s.found ∨ (l ∈ languages ∧ suffix ∈ l.extensions) := by
  induction languages generalizing s with
  | nil => simp
  | cons first languages ih =>
      rw [List.foldl_cons, ih]
      by_cases hfirst : suffix ∈ first.extensions
      · rw [if_pos (List.contains_iff_mem.mpr hfirst), take, List.mem_append, List.mem_singleton, or_assoc,
          List.mem_cons]
        refine or_congr_right ⟨?_, ?_⟩
        · rintro (rfl | ⟨hl, hsuffix⟩)
          · exact ⟨.inl rfl, hfirst⟩
          · exact ⟨.inr hl, hsuffix⟩
        · rintro ⟨rfl | hl, hsuffix⟩
          · exact .inl rfl
          · exact .inr ⟨hl, hsuffix⟩
      · rw [if_neg (fun h => hfirst (List.contains_iff_mem.mp h)), List.mem_cons]
        refine or_congr_right ⟨fun ⟨hl, hsuffix⟩ => ⟨.inr hl, hsuffix⟩, ?_⟩
        rintro ⟨rfl | hl, hsuffix⟩
        · exact absurd hsuffix hfirst
        · exact ⟨hl, hsuffix⟩

/-- Only pending languages are asked, but the others are found already. -/
theorem mem_found_meet {suffix : String} :
    l ∈ (s.meet suffix).found ↔ l ∈ s.found ∨ suffix ∈ l.extensions := by
  rw [meet, mem_found_foldl, s.split, or_and_left, and_iff_right (em _)]

theorem mem_found_visit {names : List String} :
    l ∈ (s.visit names).found ↔ l ∈ s.found ∨ ∃ name ∈ names, l.Owns name := by
  unfold visit
  induction names generalizing s with
  | nil => simp
  | cons name names ih =>
      rw [List.foldl_cons, ih, mem_found_meet, List.exists_mem_cons_iff, or_assoc]
      rfl

/-- Once every language is found, no visit changes anything. -/
theorem foldl_visit_of_pending_nil (h : s.pending = []) (visits : List Visit) :
    visits.foldl (fun s v => s.visit v.names) s = s := by
  have hmeet (suffix : String) : s.meet suffix = s := by rw [meet, h, List.foldl_nil]
  have hvisit (names : List String) : s.visit names = s := by
    unfold visit
    induction names with
    | nil => rfl
    | cons name names ih => rw [List.foldl_cons, hmeet, ih]
  induction visits with
  | nil => rfl
  | cons v visits ih => rw [List.foldl_cons, hvisit, ih]

/-- **Stopping early changes nothing**: a search ends as if it had visited every directory. -/
theorem run_eq_foldl (s : Search) (visits : List Visit) :
    s.run visits = visits.foldl (fun s v => s.visit v.names) s := by
  induction visits generalizing s with
  | nil => rfl
  | cons v visits ih =>
      rw [run]
      split
      · next hnone => exact (foldl_visit_of_pending_nil (List.isEmpty_iff.mp hnone) _).symm
      · rw [List.foldl_cons, ih]

/-- **What a search finds**: what was found before it, and the languages of the files that it meets. -/
theorem mem_found_run {visits : List Visit} :
    l ∈ (s.run visits).found ↔ l ∈ s.found ∨ ∃ v ∈ visits, ∃ name ∈ v.names, l.Owns name := by
  rw [run_eq_foldl]
  induction visits generalizing s with
  | nil => simp
  | cons v visits ih => rw [List.foldl_cons, ih, mem_found_visit, List.exists_mem_cons_iff, or_assoc]

end Search

/-! ## What lies below a root -/

/-- An entry that is no directory lies where a search comes by: at most so many levels below the root,
through directories that are neither denied nor hidden, the last of which can be listed. What stands at a
place is reached without links. -/
structure IsReached (t : Tree) (root : Path) (depth : Int) (dirs : List String) (name : String) :
    Prop where
  depth : (dirs.length : Int) ≤ depth
  entered : ∀ d ∈ dirs, d ∉ deniedNames ∧ Text.hasStart "." d = false
  fits : (root.below dirs).Fits
  entry : ∃ top n, t.stat root = .ok top ∧ top.at? (dirs ++ [name]) = some n ∧
    t.countsAsDirectory (root.below (dirs ++ [name])) n = false

/-- A file of the language lies below the root. -/
def HasSource (t : Tree) (root : Path) (depth : Int) (l : Language) : Prop :=
  ∃ dirs name, IsReached t root depth dirs name ∧ l.Owns name

theorem entersDirectory_iff {d : String} :
    entersDirectory deniedNames d = true ↔ d ∉ deniedNames ∧ Text.hasStart "." d = false := by
  simp [entersDirectory]

/-- The directories below the root are searched for sources; the root is searched in any case. -/
theorem hasSource_iff_visits (hsound : t.IsSound) {maxDepth : Int} :
    HasSource t root (max maxDepth 0) l ↔
      ∃ v ∈ t.visits ⟨maxDepth.toNat, entersDirectory deniedNames⟩ root, ∃ name ∈ v.names, l.Owns name := by
  rw [exists_mem_visits hsound]
  constructor
  · rintro ⟨dirs, name, ⟨hdepth, hentered, hfits, top, n, htop, hn, hfile⟩, howns⟩
    have hdepth : dirs.length ≤ maxDepth.toNat := by omega
    exact ⟨top, dirs, name, n, htop, hdepth, fun d hd => entersDirectory_iff.mpr (hentered d hd), hfits,
      hn, hfile, howns⟩
  · rintro ⟨top, dirs, name, n, htop, hdepth, hentered, hfits, hn, hfile, howns⟩
    have hdepth : dirs.length ≤ maxDepth.toNat := hdepth
    exact ⟨dirs, name, ⟨by omega, fun d hd => entersDirectory_iff.mp (hentered d hd), hfits, top, n, htop,
      hn, hfile⟩, howns⟩

/-! ## The same content -/

theorem IsMarked.sameContent {t' : Tree} (h : t.SameContent t') (hmarked : IsMarked t root l) :
    IsMarked t' root l := by
  obtain ⟨name, hname, hfile⟩ := hmarked
  exact ⟨name, hname, by rw [← h.isFile?_eq, hfile]⟩

theorem IsReached.sameContent {t' : Tree} (h : t.SameContent t') {depth : Int} {dirs : List String}
    {name : String} (hreached : IsReached t root depth dirs name) : IsReached t' root depth dirs name := by
  refine ⟨hreached.depth, hreached.entered, hreached.fits, ?_⟩
  obtain ⟨top, n, htop, hn, hfile⟩ := hreached.entry
  -- the root leads to the same place in both trees, and the same stands below it
  obtain ⟨place, hplace, htop⟩ := stat_eq_ok.mp htop
  have hbelow : t.top.at? (place ++ (dirs ++ [name])) = some n := by
    rw [Node.at?_append, htop]
    exact hn
  obtain ⟨n', hn', hfile'⟩ := h.exists_file hbelow hfile
  rw [Node.at?_append] at hn'
  obtain ⟨top', htop', hn'⟩ := Option.bind_eq_some_iff.mp hn'
  exact ⟨top', n', stat_eq_ok.mpr ⟨place, by rw [← h.find_eq, hplace], htop'⟩, hn', hfile'⟩

theorem HasSource.sameContent {t' : Tree} (h : t.SameContent t') {depth : Int}
    (hsource : HasSource t root depth l) : HasSource t' root depth l := by
  obtain ⟨dirs, name, hreached, howns⟩ := hsource
  exact ⟨dirs, name, hreached.sameContent h, howns⟩

theorem SameContent.marked_eq {t' : Tree} (h : t.SameContent t') (languages : List Language) :
    marked t root languages = marked t' root languages := by
  have hany (names : List String) : anyFile t root names = anyFile t' root names := by
    induction names with
    | nil => rfl
    | cons name names ih => rw [anyFile, anyFile, h.isFile?_eq, ih]
  induction languages with
  | nil => rfl
  | cons l languages ih => rw [marked, marked, hany, ih]

/-! ## Detection -/

variable {maxDepth : Int}

theorem mem_searched (hsound : t.IsSound) {found : List Language} (hfound : marked t root all = .ok found) :
    l ∈ searched t root maxDepth found ↔ IsMarked t root l ∨ HasSource t root (max maxDepth 0) l := by
  unfold searched
  rw [List.mem_filter, and_iff_right (mem_all l), List.contains_iff_mem, Search.mem_found_run,
    hasSource_iff_visits hsound]
  refine or_congr_left ?_
  show l ∈ found ↔ _
  rw [mem_marked hfound, and_iff_right (mem_all l)]

/-- What is detected is what a search finds from the resolution of the root. -/
theorem detect_eq_ok {languages : List Language} : detect t root maxDepth = .ok languages ↔
    (∀ c ∈ root.parts, '\x00' ∉ c.toList) ∧ ∃ resolved, t.resolve root = .ok resolved ∧
      ∃ found, marked t resolved all = .ok found ∧ searched t resolved maxDepth found = languages := by
  unfold detect
  rw [guard_eq_ok]
  refine and_congr (by simp) ?_
  rw [bind_eq_ok]
  refine exists_congr fun resolved => and_congr_right fun _ => ?_
  rw [bind_eq_ok]
  exact exists_congr fun found => and_congr_right fun _ => pure_eq_ok

theorem detect_ok {resolved : Path} (hnul : ∀ c ∈ root.parts, '\x00' ∉ c.toList)
    (hroot : t.resolve root = .ok resolved) (h : Looks t resolved) (maxDepth : Int) :
    ∃ languages, detect t root maxDepth = .ok languages := by
  obtain ⟨found, hfound⟩ := marked_ok h all
  exact ⟨_, detect_eq_ok.mpr ⟨hnul, resolved, hroot, found, hfound, rfl⟩⟩

/-- What a search finds is a part of all languages, so its members determine it. -/
theorem SameContent.searched_eq {t' : Tree} (h : t.SameContent t') {found : List Language}
    (hfound : marked t root all = .ok found) :
    searched t root maxDepth found = searched t' root maxDepth found := by
  have hsame (l : Language) :
      l ∈ searched t root maxDepth found ↔ l ∈ searched t' root maxDepth found := by
    rw [mem_searched h.soundLeft hfound,
      mem_searched h.soundRight ((SameContent.marked_eq h all).symm.trans hfound)]
    constructor
    · exact Or.imp (IsMarked.sameContent h) (HasSource.sameContent h)
    · exact Or.imp (IsMarked.sameContent h.symm) (HasSource.sameContent h.symm)
  unfold searched at hsame ⊢
  refine List.filter_congr fun l _ => ?_
  have hl := hsame l
  rwa [List.mem_filter, List.mem_filter, and_iff_right (mem_all l), and_iff_right (mem_all l),
    ← Bool.eq_iff_iff] at hl

/-- Trees with the same content are searched with the same result. -/
theorem SameContent.detect_eq {t' : Tree} (h : t.SameContent t') (root : Path) (maxDepth : Int) :
    detect t root maxDepth = detect t' root maxDepth := by
  have hrest (resolved : Path) :
      (do return searched t resolved maxDepth (← marked t resolved all)) =
        (do return searched t' resolved maxDepth (← marked t' resolved all)) := by
    rw [← SameContent.marked_eq h]
    cases hfound : marked t resolved all with
    | error b => rfl
    | ok found => exact congrArg Except.ok (SameContent.searched_eq h hfound)
  unfold detect
  rw [h.resolve_eq]
  simp only [hrest]

/-- **What is detected.** The result is exactly the set of the languages with a marker in the root or a
source below it, at the resolution of the root. There is a result whenever the root can be resolved and
markers can be looked for in it, and it is the same in whatever order directories list their entries. That a
search stops as soon as it has found every language never changes what it finds. -/
theorem detect_spec (hsound : t.IsSound) (root : Path) (maxDepth : Int) :
    (∀ languages, detect t root maxDepth = .ok languages →
      ∃ resolved, t.resolve root = .ok resolved ∧ languages.Nodup ∧
        ∀ l, l ∈ languages ↔ IsMarked t resolved l ∨ HasSource t resolved (max maxDepth 0) l) ∧
    (∀ resolved, (∀ c ∈ root.parts, '\x00' ∉ c.toList) → t.resolve root = .ok resolved →
      Looks t resolved → ∃ languages, detect t root maxDepth = .ok languages) ∧
    (∀ t', t.SameContent t' → detect t root maxDepth = detect t' root maxDepth) ∧
    ∀ (s : Search) (visits : List Visit), s.run visits = visits.foldl (fun s v => s.visit v.names) s := by
  refine ⟨fun languages h => ?_, fun resolved hnul hroot hlooks => detect_ok hnul hroot hlooks maxDepth,
    fun t' h => SameContent.detect_eq h root maxDepth, Search.run_eq_foldl⟩
  obtain ⟨-, resolved, hroot, found, hfound, rfl⟩ := detect_eq_ok.mp h
  exact ⟨resolved, hroot, List.Nodup.filter _ (by decide), fun l => mem_searched hsound hfound⟩

/-- A project with a marker, sources in a directory of its own, and others where no search comes by. -/
def mixed : List (String × Node) :=
  [("go.mod", .file (.text "") false), ("app", .directory [("main.PY", .file (.text "") false)]),
    (".cache", .directory [("x.rs", .file (.text "") false)]),
    ("vendor", .directory [("lib.cpp", .file (.text "") false)]), ("lib", .link "/outside")]

/-- A link to sources is not followed, and hidden and denied directories are not entered, whatever stands
first. -/
theorem detect_spec_mixed :
    let t := besideOutside mixed
    let root := Path.rooted ["project"]
    t.IsSound ∧ detect t root 1 = .ok [.go, .python] ∧ IsMarked t root .go ∧ HasSource t root 1 .python ∧
      ¬ HasSource t root 1 .rust ∧ ¬ HasSource t root 1 .c ∧
      detect (besideOutside mixed.reverse) root 1 = .ok [.go, .python] := by
  intro t root
  have hsound : t.IsSound := ⟨by decide, by decide, by decide, by decide⟩
  have hroot : t.resolve root = .ok root := by decide +kernel
  have hlooks : Looks t root := by
    have hall : ∀ l ∈ all, ∀ name ∈ l.markers, (t.isFile? (root.child name)).toOption.isSome = true := by
      decide +kernel
    intro l name hname
    have hsome := hall l (mem_all l) name hname
    cases h : t.isFile? (root.child name) with
    | ok present => exact ⟨present, rfl⟩
    | error fault => simp [h, Except.toOption] at hsome
  have hlanguages : detect t root 1 = .ok [.go, .python] := by decide +kernel
  obtain ⟨hexact, hreturns, horder, -⟩ := detect_spec hsound root 1
  obtain ⟨languages, hfound⟩ := hreturns root (by decide) hroot hlooks
  obtain rfl := Except.ok.inj (hfound.symm.trans hlanguages)
  obtain ⟨resolved, hresolved, -, hexact⟩ := hexact _ hfound
  obtain rfl := Except.ok.inj (hroot.symm.trans hresolved)
  have hreverse : t.SameContent (besideOutside mixed.reverse) := by
    have hrelists : t.top.Relists (besideOutside mixed.reverse).top :=
      @Node.Relists.inside [_] [] "project" _ _ (.here mixed.reverse_perm.symm)
    exact .of_relists hsound hrelists
  have hunmarked : ¬ IsMarked t root .python := by decide +kernel
  have hpython := ((hexact .python).mp (by decide)).resolve_left hunmarked
  refine ⟨hsound, hlanguages, by decide +kernel, hpython, ?_, ?_, ?_⟩
  · exact fun h => absurd ((hexact .rust).mpr (.inr h)) (by decide)
  · exact fun h => absurd ((hexact .c).mpr (.inr h)) (by decide)
  · rw [← horder _ hreverse, hlanguages]

/-- The entries below directories of these names in one another. -/
def nestedIn : List String → List (String × Node) → List (String × Node)
  | [], entries => entries
  | name :: names, entries => [(name, .directory (nestedIn names entries))]

theorem isSound_nestedIn {names : List String} {entries : List (String × Node)}
    (hnames : ∀ name ∈ names, isEntryName name = true) (hentries : (Node.directory entries).isSound = true) :
    (Node.directory (nestedIn names entries)).isSound = true := by
  induction names with
  | nil => exact hentries
  | cons name names ih =>
      obtain ⟨hname, hnames⟩ := List.forall_mem_cons.mp hnames
      refine Node.isSound_directory.mpr ⟨List.nodup_singleton _, ?_⟩
      intro e he
      obtain rfl := List.mem_singleton.mp he
      exact ⟨hname, ih hnames⟩

/-- **Where a search ends.** The files of the root are met even below depth zero, where no directory lies. A
directory is not searched if its path is too long to be listed, at whatever depth it lies. And a root that is
a loop of links has no languages, not even none. -/
theorem detect_at_limits :
    let python := Node.file (.text "x") false
    let flat := besideOutside [("a.py", python)]
    let name := String.ofList (List.replicate 64 'd')
    let deep := List.replicate 64 name
    let steep := besideOutside (nestedIn deep [("a.py", python)])
    let root := Path.rooted ["project"]
    (flat.IsSound ∧ detect flat root (-1) = .ok [.python] ∧ ¬ IsMarked flat root .python ∧
        ¬ HasSource flat root (-1) .python) ∧
      (steep.IsSound ∧ detect steep root 64 = .ok [] ∧ deep.length ≤ 64 ∧
        (∀ d ∈ deep, entersDirectory deniedNames d = true) ∧
        (steep.top.at? (root.parts ++ deep ++ ["a.py"])).any Node.isFile = true) ∧
      looped.IsSound ∧ ∀ languages, detect looped (Path.rooted ["project", "loop"]) 32 ≠ .ok languages := by
  intro source flat name deep steep root
  refine ⟨⟨⟨by decide, by decide, by decide, by decide⟩, by decide +kernel, by decide +kernel, ?_⟩, ?_,
    looped_sound, ?_⟩
  · rintro ⟨dirs, name, hreached, -⟩
    have hdepth := hreached.depth
    omega
  · have hname : isEntryName name = true ∧ entersDirectory deniedNames name = true := by decide +kernel
    have hdeep : ∀ d ∈ deep, d = name := fun d hd => List.eq_of_mem_replicate hd
    have hsound : (Node.directory (nestedIn deep [("a.py", source)])).isSound = true :=
      isSound_nestedIn (fun d hd => hdeep d hd ▸ hname.1) (by decide)
    have htop : steep.top.isSound = true := by
      refine Node.isSound_directory.mpr ⟨by decide, ?_⟩
      intro e he
      rcases List.mem_cons.mp he with rfl | he
      · decide
      · obtain rfl := List.mem_singleton.mp he
        exact ⟨by decide, hsound⟩
    exact ⟨⟨htop, by rfl, by decide, by decide⟩, by decide +kernel, by decide,
      fun d hd => hdeep d hd ▸ hname.2, by decide +kernel⟩
  · intro languages h
    obtain ⟨-, resolved, hresolved, -⟩ := detect_eq_ok.mp h
    have hloop : looped.resolve (Path.rooted ["project", "loop"]) = .error (.linkLoop "/project/loop") := by
      decide +kernel
    rw [hloop] at hresolved
    exact nomatch hresolved

end Assay.Language

import Assay.Proofs.Distinct

/-!
# The selection among discovered files

What a discovery is asked for is decided at the entries that its walk meets: their endings, the names of
the directories on the way to them, and the rule for tests (`selected_of_candidate`). What it returns is
what these entries lead to. An entry that no link stands at or on the way to is returned as itself, so what is
returned meets the selection exactly if the others that were collected lead to paths that meet it, too
(`selected_iff_of_discover`). A link of the project may lead to a file that does not
(`discover_unselected`).
-/

namespace Assay

open Files Files.Tree

namespace DiscoverOptions

variable {o : DiscoverOptions} {t : Tree} {root : Path} {d : Discovered} {kept : List (Path × CheckedPath)}

/-- A path below the root meets the selection: its ending is wanted, none of the directories between the
root and it is denied or hidden, and it follows no convention for tests if these are left out. -/
structure Selected (o : DiscoverOptions) (root p : Path) : Prop where
  ending : Text.lower p.suffix ∈ o.extensions
  below : ∃ parts, p.relativeTo? root = some parts ∧
    (∀ c ∈ parts.dropLast, c ∉ o.denied ∧ Text.hasStart "." c = false) ∧
    (o.includeTests = false → isTestPath parts = false)

theorem entersDirectory_iff {denied : List String} {name : String} :
    Language.entersDirectory denied name = true ↔ name ∉ denied ∧ Text.hasStart "." name = false := by
  simp [Language.entersDirectory]

/-- **Every candidate meets the selection.** -/
theorem selected_of_candidate (hsound : t.IsSound) {c : Path} (hc : c ∈ o.candidates t root) :
    o.Selected root c := by
  obtain ⟨hselects, place, dirs, name, m, -, rfl, -, henters, -⟩ := ((candidates_walks hsound).2 c).mp hc
  obtain ⟨hending, htests⟩ := Bool.and_eq_true_iff.mp hselects
  refine ⟨List.contains_iff_mem.mp hending, dirs ++ [name], Path.relativeTo?_eq_some.mpr ⟨rfl, rfl⟩, ?_, ?_⟩
  · rw [List.dropLast_concat]
    exact fun dir hdir => entersDirectory_iff.mp (henters dir hdir)
  · intro hinclude
    rw [Path.below_parts, List.drop_left, hinclude] at htests
    simpa using htests

/-- All paths are selected exactly if those are that candidates were collected for which are not direct. -/
theorem Collects.selected_iff (h : o.Collects t root kept d) (hsound : t.IsSound)
    (hnames : ∀ c ∈ root.parts, IsName c) (hselected : ∀ e ∈ kept, o.Selected root e.1) :
    (∀ p ∈ d.paths, o.Selected root p) ↔
      ∀ link ∈ kept, ¬ t.IsDirect link.1 → o.Selected root link.2.canonical := by
  rw [h.paths, List.forall_mem_map]
  constructor
  · exact fun hall link hlink _ => hall link hlink
  · intro hlinks e he
    by_cases hown : t.IsDirect e.1
    · -- a candidate that is direct is returned as itself
      rw [h.canonical_eq hsound hnames he hown]
      exact hselected e he
    · exact hlinks e he hown

/-- **Whether the discovered files meet the selection.** A discovery collects candidates, all of which meet
the selection, and returns for each the path that it passed the checks as: a path below what the root resolves
to, taken as a base, and through no denied name, and the candidate itself if that is direct. So the paths meet
the selection, too, exactly if the candidates that were collected and are not direct lead to paths that do. A
root that can be followed to its end resolves to itself as a base, and the candidates below it are direct
unless they are links. -/
theorem selected_iff_of_discover (hsound : t.IsSound) (h : o.discover t root = .ok d) :
    (o.maxFiles ≤ 0 → d.paths = []) ∧
    (1 ≤ o.maxFiles → ∃ resolved kept, t.resolve root = .ok resolved ∧ o.Collects t resolved kept d ∧
      (∀ e ∈ kept, o.Selected resolved e.1) ∧
      (∀ e ∈ kept, ∃ base parts, t.resolve resolved = .ok base ∧ e.2.canonical.relativeTo? base = some parts ∧
        ∀ c ∈ parts, c ∉ o.denied) ∧
      (∀ e ∈ kept, t.IsDirect e.1 → e.2.canonical = e.1) ∧
      (∀ n place, t.Follows n (t.startOf root) root.parts place → t.resolve resolved = .ok resolved ∧
        ∀ e ∈ kept, t.IsDirect e.1 ↔ t.target? e.1.parts = none) ∧
      ((∀ p ∈ d.paths, o.Selected resolved p) ↔
        ∀ link ∈ kept, ¬ t.IsDirect link.1 → o.Selected resolved link.2.canonical)) := by
  constructor
  · intro hfiles
    rw [discover, if_pos hfiles] at h
    obtain rfl := pure_eq_ok.mp h
    rfl
  · intro hfiles
    obtain ⟨resolved, kept, hresolved, hkept⟩ := discover_collects hfiles h
    have hnames := t.isName_of_resolve hresolved
    have hselected : ∀ e ∈ kept, o.Selected resolved e.1 :=
      fun e he => selected_of_candidate hsound (hkept.candidate he)
    refine ⟨resolved, kept, hresolved, hkept, hselected, ?_, ?_, ?_, hkept.selected_iff hsound hnames hselected⟩
    · exact fun e he => relativeTo?_of_candidate (hkept.passed e he)
    · exact fun e he => hkept.canonical_eq hsound hnames he
    · intro n place hfollows
      have hdirect := isDirect_of_follows hsound hresolved hfollows
      refine ⟨?_, fun e he => isDirect_candidate_iff hsound hnames hdirect (hkept.candidate he)⟩
      rw [Path.eq_rooted_of_anchor hdirect.1]
      exact resolve_of_isReal hsound ⟨hnames, hdirect.2⟩

/-- The link of a project leads to the file beside it, which is selected. -/
theorem selected_iff_of_discover_aliased :
    ∃ d, allOfC.discover aliased projectRoot = .ok d ∧ d.paths ≠ [] ∧
      ∀ p ∈ d.paths, allOfC.Selected projectRoot p := by
  obtain ⟨d, hd, -, hpaths⟩ := @discover_aliased projectRoot (by decide +kernel)
  obtain ⟨-, hcollects⟩ := selected_iff_of_discover aliased_sound hd
  obtain ⟨resolved, kept, hresolved, hkept, -, -, -, -, hselected⟩ := hcollects (by decide)
  have hroot : aliased.resolve projectRoot = .ok projectRoot := by decide +kernel
  obtain rfl := Except.ok.inj (hroot.symm.trans hresolved)
  refine ⟨d, hd, by simp [hpaths], hselected.mpr fun link hlink _ => ?_⟩
  have hmain : link.2.canonical = Path.rooted ["project", "main.c"] := by
    have hmem : link.2.canonical ∈ d.paths := by
      rw [hkept.paths]
      exact List.mem_map_of_mem (f := fun e => e.2.canonical) hlink
    simpa [hpaths] using hmem
  rw [hmain]
  exact ⟨by decide +kernel, ["main.c"], by decide +kernel, by decide +kernel, by decide +kernel⟩

/-- A project whose link leads to a note that is hidden among the tests. -/
def veiled : Tree :=
  besideOutside [(".hidden", .directory [("tests", .directory [("notes.txt", .file (.text "x") false)])]),
    ("a.c", .link ".hidden/tests/notes.txt")]

/-- The C files of a project that are no tests. -/
def untestedC : DiscoverOptions := { extensions := [".c"], includeTests := false }

/-- **A link is discovered as what it leads to**, which meets no part of the selection here: its ending is
another one, it is hidden, and it lies among the tests. -/
theorem discover_unselected :
    let note := Path.rooted ["project", ".hidden", "tests", "notes.txt"]
    veiled.IsSound ∧ ∃ d, untestedC.discover veiled projectRoot = .ok d ∧ note ∈ d.paths ∧
      Text.lower note.suffix ∉ untestedC.extensions ∧
      ∃ parts, note.relativeTo? projectRoot = some parts ∧ ".hidden" ∈ parts.dropLast ∧
        isTestPath parts = true := by
  intro note
  have hsound : veiled.IsSound := ⟨by decide, by decide, by decide, by decide⟩
  have hcandidates : untestedC.candidates veiled projectRoot = [Path.rooted ["project", "a.c"]] := by
    have hhidden : Language.entersDirectory untestedC.denied ".hidden" = false := by decide +kernel
    unfold candidates
    have hroot : veiled.stat projectRoot = .ok (.directory
        [(".hidden", .directory [("tests", .directory [("notes.txt", .file (.text "x") false)])]),
          ("a.c", .link ".hidden/tests/notes.txt")]) := rfl
    rw [files_of_shallow hroot (by simp [Node.isDirectory, hhidden])]
    decide +kernel
  have hcheck : veiled.checkPath (Path.rooted ["project", "a.c"]).toString (untestedC.policy projectRoot) =
      .ok ⟨note, 1⟩ := by decide +kernel
  obtain ⟨d, hd, hpaths⟩ : ∃ d, untestedC.discover veiled projectRoot = .ok d ∧ d.paths = [note] :=
    discover_of_candidate (by decide) (by decide +kernel) hcandidates hcheck (by simp [untestedC])
  refine ⟨hsound, d, hd, by simp [hpaths], by decide +kernel, [".hidden", "tests", "notes.txt"],
    by decide +kernel, by decide +kernel, by decide +kernel⟩

end DiscoverOptions

end Assay

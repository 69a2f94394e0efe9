import Assay.Proofs.Recognition

/-!
# Files that are discovered more than once

A walk meets every entry of a directory once, but what is returned for an entry is the path that it resolves
to. An entry that no link stands at or on the way to is returned as itself, so a path that is returned twice was
returned for another one (`paths_nodup_iff`); a link beside the file that it leads to is enough for that
(`discover_repeats`). No link stands on the way to any entry if none stands on the way to the root, as is the
case for a root that could be followed to its end.
-/

namespace Assay

open Files Files.Tree

namespace Files.Tree

variable {t : Tree} {root p : Path} {place : Place}

/-- What no link stands on the way to is found where its path says. -/
theorem IsDirect.find_eq (h : t.IsDirect p) (hsound : t.IsSound) (hnames : ∀ c ∈ p.parts, IsName c)
    (hfind : t.find true p = .ok place) : place = p.parts := by
  obtain ⟨hanchor, hfree⟩ := h
  rw [Path.eq_rooted_of_anchor hanchor] at hfind
  rcases find_of_linkFree hsound true hnames (hfree.before (List.dropLast_prefix _))
    (fun _ => hfree _ (List.prefix_refl _)) with ⟨hok, -⟩ | ⟨⟨e, -, herror⟩, -⟩
  · exact Except.ok.inj (hfind.symm.trans hok)
  · rw [herror] at hfind
    exact nomatch hfind

theorem IsDirect.of_below {parts : List String} (h : t.IsDirect (root.below parts)) : t.IsDirect root :=
  ⟨h.1, h.2.before (List.prefix_append _ _)⟩

/-- What a path can be followed to is direct. -/
theorem isDirect_of_follows (hsound : t.IsSound) {n : Nat} {resolved : Path}
    (hresolved : t.resolve root = .ok resolved) (h : t.Follows n (t.startOf root) root.parts place) :
    t.IsDirect resolved := by
  obtain rfl := Except.ok.inj ((resolve_of_follows hsound h).symm.trans hresolved)
  exact ⟨rfl, (h.isReal hsound (hsound.isReal_startOf root)).linkFree⟩

/-- What stands at a real place of a sound tree passes the checks as itself. -/
theorem canonical_of_isReal (hsound : t.IsSound) {n : Node} {policy : PathPolicy} {checked : CheckedPath}
    (hreal : t.IsReal place) (hn : t.top.at? place = some n)
    (h : t.checkPath (Path.rooted place).toString policy = .ok checked) :
    checked.canonical = Path.rooted place := by
  have hcomponents : ∀ c ∈ place, IsComponent c := fun c hc =>
    isComponent_of_isEntryName ((Node.isSound_of_at? hsound.top hn).2 c hc)
  obtain ⟨-, p, hcanonical, -, -, htarget⟩ := checkPath_eq_ok.mp h
  obtain ⟨rfl, -⟩ := checkTarget_sound htarget
  obtain ⟨q, hq, hresolve⟩ := canonical_eq_ok hcanonical
  rw [hreal.ofString_toString hcomponents] at hq
  obtain rfl : Path.rooted place = q := Option.some.inj hq
  exact (Except.ok.inj ((resolve_of_isReal hsound hreal).symm.trans hresolve)).symm

end Files.Tree

namespace DiscoverOptions

variable {o : DiscoverOptions} {t : Tree} {root resolved : Path} {d : Discovered}
  {kept : List (Path × CheckedPath)}

/-- A walk meets no entry twice. -/
theorem nodup_candidates (hsound : t.IsSound) : (o.candidates t root).Nodup :=
  (nodup_files hsound).filter _

theorem Collects.nodup (h : o.Collects t root kept d) (hsound : t.IsSound) : (kept.map Prod.fst).Nodup :=
  h.candidates.nodup (nodup_candidates hsound)

theorem Collects.candidate (h : o.Collects t root kept d) {e : Path × CheckedPath} (he : e ∈ kept) :
    e.1 ∈ o.candidates t root :=
  h.candidates.subset (List.mem_map_of_mem he)

/-- Below a direct root, a candidate stands where its path says. -/
theorem at?_of_candidate (hsound : t.IsSound) (hnames : ∀ c ∈ resolved.parts, IsName c)
    (hdirect : t.IsDirect resolved) {c : Path} (hc : c ∈ o.candidates t resolved) :
    c.anchor = .root ∧ ∃ n, t.top.at? c.parts = some n := by
  obtain ⟨-, place, dirs, name, n, hfind, rfl, -, -, -, hn, -⟩ := ((candidates_walks hsound).2 c).mp hc
  obtain rfl := hdirect.find_eq hsound hnames hfind
  refine ⟨hdirect.1, n, ?_⟩
  rwa [Path.below_parts, ← List.append_assoc]

/-- Below a direct root, a candidate is direct unless it is a link itself. -/
theorem isDirect_candidate_iff (hsound : t.IsSound) (hnames : ∀ c ∈ resolved.parts, IsName c)
    (hdirect : t.IsDirect resolved) {c : Path} (hc : c ∈ o.candidates t resolved) :
    t.IsDirect c ↔ t.target? c.parts = none := by
  obtain ⟨hanchor, n, hn⟩ := at?_of_candidate hsound hnames hdirect hc
  constructor
  · exact fun h => h.2 _ (List.prefix_refl _)
  · exact fun hlink => ⟨hanchor, (hsound.isReal_of_no_link hn hlink).linkFree⟩

/-- A candidate that is direct is returned as itself. -/
theorem Collects.canonical_eq (h : o.Collects t resolved kept d) (hsound : t.IsSound)
    (hnames : ∀ c ∈ resolved.parts, IsName c) {e : Path × CheckedPath} (he : e ∈ kept)
    (hdirect : t.IsDirect e.1) : e.2.canonical = e.1 := by
  have hcandidate := h.candidate he
  have hroot : t.IsDirect resolved := by
    obtain ⟨-, place, dirs, name, n, -, hpath, -⟩ := ((candidates_walks hsound).2 e.1).mp hcandidate
    exact (hpath ▸ hdirect).of_below
  obtain ⟨hanchor, n, hn⟩ := at?_of_candidate hsound hnames hroot hcandidate
  have hpassed := h.passed e he
  have hreal := hsound.isReal_of_no_link hn (hdirect.2 _ (List.prefix_refl _))
  rw [Path.eq_rooted_of_anchor hanchor] at hpassed ⊢
  exact canonical_of_isReal hsound hreal hn hpassed

/-- The paths are distinct exactly if none that is not direct was collected and is returned as another
candidate is. -/
theorem Collects.nodup_paths (h : o.Collects t resolved kept d) (hsound : t.IsSound)
    (hnames : ∀ c ∈ resolved.parts, IsName c) :
    d.paths.Nodup ↔ ∀ link ∈ kept, ¬ t.IsDirect link.1 →
      ∀ e ∈ kept, e.2.canonical = link.2.canonical → e = link := by
  have hnodup := h.nodup hsound
  rw [h.paths]
  constructor
  · intro hpaths link hlink _ e he heq
    exact List.inj_on_of_nodup_map hpaths he hlink heq
  · intro hlinks
    refine List.Nodup.map_on ?_ hnodup.of_map
    intro e he f hf heq
    -- if both are direct, both are returned as themselves
    by_cases hother : t.IsDirect f.1
    · by_cases hown : t.IsDirect e.1
      · rw [h.canonical_eq hsound hnames he hown, h.canonical_eq hsound hnames hf hother] at heq
        exact List.inj_on_of_nodup_map hnodup he hf heq
      · exact (hlinks e he hown f hf heq.symm).symm
    · exact hlinks f hf hother e he heq

/-- **Which files are discovered more than once.** A discovery collects distinct candidates, in the order of
the walk, and returns for each of them the path that it passed the checks as, charging its size once. A
candidate that is direct is returned as itself, and below a direct root those are direct that are no links. So
the paths are distinct exactly if none among the candidates that were collected that is not direct is returned
as another one of them is. -/
theorem paths_nodup_iff (hsound : t.IsSound) (h : o.discover t root = .ok d) :
    (o.maxFiles ≤ 0 → d.paths = [] ∧ d.totalBytes = 0) ∧
    (1 ≤ o.maxFiles → ∃ resolved kept, t.resolve root = .ok resolved ∧ o.Collects t resolved kept d ∧
      (kept.map Prod.fst).Nodup ∧
      (∀ e ∈ kept, t.IsDirect e.1 → e.2.canonical = e.1) ∧
      (∀ n place, t.Follows n (t.startOf root) root.parts place → t.IsDirect resolved) ∧
      (t.IsDirect resolved → ∀ e ∈ kept, t.IsDirect e.1 ↔ t.target? e.1.parts = none) ∧
      (d.paths.Nodup ↔ ∀ link ∈ kept, ¬ t.IsDirect link.1 →
        ∀ e ∈ kept, e.2.canonical = link.2.canonical → e = link)) := by
  constructor
  · intro hfiles
    rw [discover, if_pos hfiles] at h
    obtain rfl := pure_eq_ok.mp h
    exact ⟨rfl, rfl⟩
  · intro hfiles
    obtain ⟨resolved, kept, hresolved, hkept⟩ := discover_collects hfiles h
    have hnames := t.isName_of_resolve hresolved
    exact ⟨resolved, kept, hresolved, hkept, hkept.nodup hsound,
      fun e he => hkept.canonical_eq hsound hnames he, fun n place => isDirect_of_follows hsound hresolved,
      fun hdirect e he => isDirect_candidate_iff hsound hnames hdirect (hkept.candidate he),
      hkept.nodup_paths hsound hnames⟩

/-- In a project whose link leads to the file beside it, it is the link that repeats the file. -/
theorem paths_nodup_iff_aliased :
    ∃ d, allOfC.discover aliased projectRoot = .ok d ∧ ∃ resolved kept, allOfC.Collects aliased resolved kept d ∧
      ∃ link ∈ kept, aliased.target? link.1.parts ≠ none ∧
        ∃ e ∈ kept, e ≠ link ∧ e.2.canonical = link.2.canonical := by
  obtain ⟨d, hd, -, hpaths⟩ := @discover_aliased projectRoot (by decide +kernel)
  obtain ⟨-, hcollects⟩ := paths_nodup_iff aliased_sound hd
  obtain ⟨resolved, kept, -, hkept, -, -, hfollowed, hdirect, hnodup⟩ := hcollects (by decide)
  have hroot : aliased.Follows 0 [] projectRoot.parts ["project"] := .down (by decide) (by decide +kernel) .done
  have hrepeated : ¬ d.paths.Nodup := by simp [hpaths]
  rw [hnodup] at hrepeated
  push Not at hrepeated
  obtain ⟨link, hlink, hindirect, e, he, hsame, hother⟩ := hrepeated
  rw [hdirect (hfollowed 0 _ hroot) link hlink] at hindirect
  exact ⟨d, hd, resolved, kept, hkept, link, hlink, hindirect, e, he, hother, hsame⟩

/-- **A file is discovered twice**, and charged twice, if a link stands beside it. -/
theorem discover_repeats :
    aliased.IsSound ∧ aliased.Acyclic ∧ ∃ d, allOfC.discover aliased projectRoot = .ok d ∧
      ¬ d.paths.Nodup ∧ d.totalBytes = 2 ∧ ∀ p ∈ d.paths, ∃ checked,
        aliased.checkPath p.toString (allOfC.policy projectRoot) = .ok checked ∧ checked.size = 1 := by
  obtain ⟨d, hd, hbytes, hpaths⟩ := @discover_aliased projectRoot (by decide +kernel)
  refine ⟨aliased_sound, aliased_acyclic, d, hd, by simp [hpaths], hbytes, ?_⟩
  intro p hp
  have hmain : p = Path.rooted ["project", "main.c"] := by simpa [hpaths] using hp
  refine ⟨⟨Path.rooted ["project", "main.c"], 1⟩, ?_, rfl⟩
  rw [hmain]
  decide +kernel

end DiscoverOptions

end Assay

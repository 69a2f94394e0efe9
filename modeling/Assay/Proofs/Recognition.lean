import Assay.Proofs.Discover
import Assay.Proofs.Files.Relative
import Assay.Proofs.Normalize

/-!
# Findings in discovered files

Two guards decide whether a file lies in the project and outside its denied directories: the check of a
candidate when sources are discovered, and the search for the path of a finding when a report is
normalized. In a tree without cycles of links the second one recognizes whatever the first one let through
(`recognized_of_discover`), so no finding in a file that was handed to a tool is lost as one outside the
project. A name with a backslash is the exception, since a backslash in a finding is read as a slash.
-/

namespace Assay

open Files Files.Tree

namespace Files.Tree

variable {t : Tree}

/-- A real place is what its own text resolves to. -/
theorem resolve_ofString_rooted (hsound : t.IsSound) {place : Place} (hreal : t.IsReal place)
    (hplace : ∀ c ∈ place, IsComponent c) (root : Path) :
    t.resolve (root / Path.ofString (Path.rooted place).toString) = .ok (Path.rooted place) := by
  rw [hreal.ofString_toString hplace]
  exact resolve_of_isReal hsound hreal

/-- Read from whatever root, the text of a real place leads there, unless there is a backslash in it. -/
theorem resolve_readFrom_rooted (hsound : t.IsSound) {place : Place} (hreal : t.IsReal place)
    (hplace : ∀ c ∈ place, IsComponent c) (hslash : '\\' ∉ (Path.rooted place).toString.toList) (root : Path) :
    t.resolve (readFrom root (Path.rooted place).toString) = .ok (Path.rooted place) := by
  rw [readFrom, Text.replaceChar_of_not_mem hslash]
  exact resolve_ofString_rooted hsound hreal hplace root

/-- **A real place below a root is found again** by its text, relative to the root. -/
theorem relativePath?_of_isReal (hsound : t.IsSound) {place : Place} (hreal : t.IsReal place)
    (hplace : ∀ c ∈ place, IsComponent c) (hslash : '\\' ∉ (Path.rooted place).toString.toList)
    {root resolved : Path} (hroot : t.resolve root = .ok resolved) {parts denied : List String}
    (hparts : (Path.rooted place).relativeTo? resolved = some parts) (hne : parts ≠ [])
    (hdenied : ∀ c ∈ parts, c ∉ denied) :
    t.relativePath? (Path.rooted place).toString root denied = some (Path.relativeText parts) := by
  have hnonempty : (Path.rooted place).toString ≠ "" := by
    intro hempty
    have hchars := congrArg String.toList hempty
    rw [Path.toString_rooted, String.toList_append] at hchars
    simp at hchars
  obtain ⟨hanchor, hplaces⟩ := Path.relativeTo?_eq_some.mp hparts
  have hbase : resolved = Path.rooted resolved.parts := Path.eq_rooted_of_anchor hanchor.symm
  have hread := resolve_readFrom_rooted hsound hreal hplace hslash root
  have hfound := (relativeParts?_iff (hbase ▸ hroot) hread).mpr
    ⟨hnonempty, nul_not_mem_toString rfl hplace, hne, hplaces, hdenied⟩
  rw [relativePath?, hfound]
  rfl

end Files.Tree

/-- The text of names below a root can stand for a file in an issue. -/
theorem pathComplaint_relativeText {parts : List String} (hwritable : Writable parts)
    (hnames : ∀ c ∈ parts, IsName c) (hne : parts ≠ []) (hslash : ∀ c ∈ parts, '\\' ∉ c.toList) :
    Issue.pathComplaint (Path.relativeText parts) = none := by
  have hforward : '\\' ∉ (Path.relativeText parts).toList := by
    intro hmem
    rcases Path.mem_relativeText hne hmem with h | ⟨c, hc, h⟩
    · exact absurd h (by decide)
    · exact hslash c hc h
  rw [pathComplaint_of_names hwritable hnames hne, if_neg hforward]

namespace DiscoverOptions

variable {o : DiscoverOptions} {t : Tree} {root : Path} {d : Discovered} {p : Path}

/-- A discovered path is a candidate that passed the checks, below what the root resolves to. -/
theorem exists_candidate (h : o.discover t root = .ok d) (hp : p ∈ d.paths) :
    ∃ resolved, t.resolve root = .ok resolved ∧ ∃ c ∈ o.candidates t resolved, ∃ checked,
      t.checkPath c.toString (o.policy resolved) = .ok checked ∧ checked.canonical = p := by
  have hfiles : 1 ≤ o.maxFiles := by
    by_contra hnone
    rw [discover, if_pos (by omega)] at h
    obtain rfl := pure_eq_ok.mp h
    simp at hp
  obtain ⟨resolved, kept, hresolved, hkept⟩ := discover_collects hfiles h
  rw [hkept.paths] at hp
  obtain ⟨e, he, rfl⟩ := List.mem_map.mp hp
  have hcandidate := hkept.candidates.subset (List.mem_map_of_mem he)
  exact ⟨resolved, hresolved, e.1, hcandidate, e.2, hkept.passed e he, rfl⟩

/-- **What a discovery returns**, in a tree without cycles of links: a real place below what the root
resolves to, through names none of which is denied. -/
theorem isReal_of_discover (hsound : t.IsSound) (hacyclic : t.Acyclic) (h : o.discover t root = .ok d)
    (hp : p ∈ d.paths) :
    ∃ resolved place parts, t.resolve root = .ok resolved ∧ p = Path.rooted place ∧ t.IsReal place ∧
      (∀ c ∈ place, isEntryName c = true) ∧ p.relativeTo? resolved = some parts ∧ parts ≠ [] ∧
      ∀ c ∈ parts, c ∉ o.denied := by
  obtain ⟨resolved, hresolved, c, hc, checked, hcheck, rfl⟩ := exists_candidate h hp
  obtain ⟨-, q, hcanonical, -, -, htarget⟩ := checkPath_eq_ok.mp hcheck
  obtain ⟨rfl, -⟩ := checkTarget_sound htarget
  obtain ⟨p', -, hresolve⟩ := canonical_eq_ok hcanonical
  have hpasses := checkPath_passes hcheck
  obtain ⟨n, hn⟩ := hpasses.present rfl
  obtain ⟨place, hplace, hreal, hat⟩ := isReal_of_resolve hsound hacyclic hresolve hn
  -- what the root resolves to is resolved already
  obtain ⟨base, rfl, hbase⟩ := reaches_of_resolve hsound hacyclic hresolved
  have hsettled : t.IsSettled ([] ++ base) := hbase.isSettled hsound
  have hself : t.resolve (Path.rooted base) = .ok (Path.rooted base) :=
    Reaches.resolve hsound hacyclic hsettled.steps_down
  obtain ⟨resolved, parts, hagain, hparts, hdenied⟩ := relativeTo?_of_candidate hcheck
  obtain rfl := Except.ok.inj (hself.symm.trans hagain)
  refine ⟨_, place, parts, hresolved, hplace, hreal, (Node.isSound_of_at? hsound.top hat).2,
    hparts, ?_, hdenied⟩
  -- a file is not the root
  rintro rfl
  obtain ⟨entries, hentries⟩ := directory_of_candidate hsound hc
  have hsame : checked.canonical = Path.rooted base := by
    obtain ⟨hanchor, hown⟩ := Path.relativeTo?_eq_some.mp hparts
    rw [hplace] at hown ⊢
    rw [show place = base by simpa using hown]
  rw [hsame] at hn
  obtain rfl := Except.ok.inj (hentries.symm.trans hn)
  have hfile := (hpasses.kind _ (hsame ▸ hentries)).1 rfl
  simp [Node.isFile] at hfile

/-- **A discovered path is recognized again.** In a tree without cycles of links, whatever a discovery that
denies the usual directories returns is found relative to the same root, by the components that lead to it
from what the root resolves to, unless its text holds a backslash. So a finding in such a file becomes an
issue at this path, if it has an identifier there. -/
theorem recognized_of_discover (hsound : t.IsSound) (hacyclic : t.Acyclic)
    (hdenied : o.denied = deniedNames) (h : o.discover t root = .ok d) (hp : p ∈ d.paths)
    (hslash : '\\' ∉ p.toString.toList) :
    ∃ resolved parts, t.resolve root = .ok resolved ∧ p.relativeTo? resolved = some parts ∧
      t.relativePath? p.toString root = some (Path.relativeText parts) ∧
      ∀ (profile : Profile) (raw : RawIssue), profile.root = root → profile.denied = deniedNames →
        raw.file = some p.toString →
          profile.issue? t raw = (profile.issueAt (Path.relativeText parts) raw).map some := by
  obtain ⟨resolved, place, parts, hresolved, rfl, hreal, hentries, hparts, hne, hallowed⟩ :=
    isReal_of_discover hsound hacyclic h hp
  rw [hdenied] at hallowed
  have hfound := relativePath?_of_isReal hsound hreal (fun c hc => isComponent_of_isEntryName (hentries c hc))
    hslash hresolved hparts hne hallowed
  refine ⟨resolved, parts, hresolved, hparts, hfound, ?_⟩
  intro profile raw hroot hprofile hfile
  have hsub : ∀ c ∈ parts, c ∈ place := by
    intro c hc
    have hplace : place = resolved.parts ++ parts := (Path.relativeTo?_eq_some.mp hparts).2
    rw [hplace]
    exact List.mem_append_right _ hc
  have hforward : ∀ c ∈ parts, '\\' ∉ c.toList := by
    intro c hc hmem
    apply hslash
    rw [Path.toString_rooted, String.toList_append, List.mem_append]
    exact .inr (Text.mem_join_of_mem (hsub c hc) hmem)
  have hcomplaint := pathComplaint_relativeText
    (fun c hc => (isComponent_of_isEntryName (hentries c (hsub c hc))).1)
    (fun c hc => hreal.names c (hsub c hc)) hne hforward
  have hpath : profile.pathOf? t raw = some (Path.relativeText parts) := by
    rw [Profile.pathOf?, hfile, hroot, hprofile, Option.bind_some, hfound]
  unfold Profile.issue?
  rw [hpath]
  dsimp only
  rw [hcomplaint]
  cases profile.issueAt (Path.relativeText parts) raw <;> rfl

/-- A project whose only link leads to the file beside it. -/
def aliased : Tree := besideOutside [("alias.c", .link "main.c"), ("main.c", .file (.text "x") false)]

theorem aliased_sound : aliased.IsSound := ⟨by decide, by decide, by decide, by decide⟩

theorem aliased_acyclic : aliased.Acyclic := by
  have hplaces : aliased.top.linkPlaces = [["project", "alias.c"]] := by decide +kernel
  have hsplit : Text.splitOn '/' "main.c" = ["main.c"] := by decide +kernel
  apply acyclic_of_leads aliased_sound
  rw [hplaces, List.forall_mem_singleton]
  refine ⟨0, ["project", "main.c"], "main.c", by decide +kernel, ?_⟩
  rw [hsplit]
  exact .down (by decide) (by decide +kernel) .done

/-- The C files of a project. -/
def allOfC : DiscoverOptions := { extensions := [".c"] }

/-- A discovery of the project returns the file twice. -/
theorem discover_aliased {root : Path} (hroot : aliased.resolveOrFail root = .ok projectRoot) :
    ∃ d, allOfC.discover aliased root = .ok d ∧ d.totalBytes = 2 ∧
      d.paths = [Path.rooted ["project", "main.c"], Path.rooted ["project", "main.c"]] := by
  have hwalk : allOfC.candidates aliased projectRoot =
      [Path.rooted ["project", "alias.c"], Path.rooted ["project", "main.c"]] := by
    unfold candidates
    rw [aliased, files_besideOutside (by decide +kernel) (by decide +kernel)]
    decide +kernel
  have hcheck (p : Path) (hp : p ∈ allOfC.candidates aliased projectRoot) :
      aliased.checkPath p.toString (allOfC.policy projectRoot) =
        .ok ⟨Path.rooted ["project", "main.c"], 1⟩ := by
    rw [hwalk] at hp
    revert p
    decide +kernel
  rw [discover_of_root (by decide) hroot]
  generalize hfile : (⟨Path.rooted ["project", "main.c"], 1⟩ : CheckedPath) = file at hcheck
  rw [hwalk] at hcheck ⊢
  simp only [collect, hcheck _ List.mem_cons_self, hcheck _ (List.mem_cons_of_mem _ List.mem_cons_self)]
  subst hfile
  simp [allOfC, Budget.charge]

/-- The link and the file beside it are discovered as the same file, from a root that is not written as it
resolves. -/
theorem recognized_of_discover_alias :
    let root := Path.ofString "/outside/../project"
    let main := Path.rooted ["project", "main.c"]
    ∃ d, allOfC.discover aliased root = .ok d ∧ d.paths = [main, main] ∧
      aliased.relativePath? main.toString root = some "main.c" := by
  intro root main
  have hroot : aliased.resolveOrFail root = .ok projectRoot := by decide +kernel
  obtain ⟨d, hd, -, hpaths⟩ := discover_aliased hroot
  have hmain : main ∈ d.paths := by
    rw [hpaths]
    exact List.mem_cons_self
  obtain ⟨resolved, parts, hresolved, hparts, hfound, -⟩ :=
    recognized_of_discover aliased_sound aliased_acyclic rfl hd hmain (by decide +kernel)
  obtain rfl := Except.ok.inj ((resolveOrFail_eq_ok.mp hroot).symm.trans hresolved)
  have hname : main.relativeTo? projectRoot = some ["main.c"] := by decide +kernel
  obtain rfl := Option.some.inj (hname.symm.trans hparts)
  exact ⟨d, hd, hpaths, hfound⟩

end DiscoverOptions

end Assay

import Assay.Proofs.Digest
import Assay.Proofs.Files.Check
import Assay.Proofs.Normalize
import Assay.Proofs.Schema.Issues

/-!
# Findings that become issues

The path that is found for a finding and the positions that it is given are looked at once more by the
rules for issues. They obey these rules but for one: backslashes of the finding are read as slashes before
links are followed, so a backslash in the target of a link stays. A finding becomes an issue or none exactly
if no such path comes out and its line can be written out for its identifier, and if all findings of a report
do, so does the report (`Profile.issue?_isOk_iff`).
-/

namespace Assay

open Files Files.Tree

/-- No backslash stands in a link, in a root, or on the way to where the root starts. -/
structure Files.Tree.Forward (t : Tree) (root : Path) : Prop where
  links : ∀ q target, t.target? q = some target → '\\' ∉ target.toList
  start : ∀ c ∈ t.startOf root, '\\' ∉ c.toList
  root : ∀ c ∈ root.parts, '\\' ∉ c.toList

namespace Profile

variable {p : Profile} {t : Tree} {raw : RawIssue} {path : String} {options : Option LanguageOptions}

/-- What is wrong with an issue at a path that holds a backslash. -/
def slashFault (path : String) : Breach :=
  .invalid ("canonical_path: Value error, canonical path must use forward slashes: " ++ Text.quoted path)

/-! ## Paths -/

/-- The path of a finding is written with names that hold no slash. -/
theorem pathOf?_eq_some (hsound : t.IsSound) (hroot : ∃ s, p.root = Path.ofString s)
    (h : p.pathOf? t raw = some path) :
    ∃ file parts, t.relativeParts? file p.root p.denied = some parts ∧ parts ≠ [] ∧
      path = Path.relativeText parts ∧ Writable parts ∧ ∀ c ∈ parts, IsName c := by
  obtain ⟨file, -, hfile⟩ := Option.bind_eq_some_iff.mp h
  obtain ⟨parts, hparts, rfl⟩ := Option.map_eq_some_iff.mp hfile
  obtain ⟨s, hs⟩ := hroot
  have hwritable : Writable parts := by
    apply forall_mem_relativeParts (fun _ target _ => writable_splitOn target) ?_ ?_ ?_ hparts
    · exact fun c hc => (hsound.isComponent_startOf _ c hc).1
    · rw [hs]
      exact Path.writable_ofString s
    · exact Path.writable_ofString _
  exact ⟨file, parts, hparts, (relativeParts?_eq_some hparts).1, rfl, hwritable,
    isName_of_mem_relativeParts hparts⟩

/-- Only a backslash can be wrong with the path of a finding. -/
theorem pathComplaint_of_pathOf? (hsound : t.IsSound) (hroot : ∃ s, p.root = Path.ofString s)
    (h : p.pathOf? t raw = some path) :
    Issue.pathComplaint path =
      if '\\' ∈ path.toList then some ("canonical path must use forward slashes: " ++ Text.quoted path)
      else none := by
  obtain ⟨_, parts, -, hne, rfl, hwritable, hnames⟩ := pathOf?_eq_some hsound hroot h
  exact pathComplaint_of_names hwritable hnames hne

/-- Where links and the root hold no backslash, neither does the path of a finding. -/
theorem not_mem_of_forward (hsound : t.IsSound) (hroot : ∃ s, p.root = Path.ofString s)
    (hforward : t.Forward p.root) (h : p.pathOf? t raw = some path) : '\\' ∉ path.toList := by
  obtain ⟨file, parts, hparts, hne, rfl, -, -⟩ := pathOf?_eq_some hsound hroot h
  have hpieces {s : String} (hs : '\\' ∉ s.toList) : ∀ c ∈ Text.splitOn '/' s, '\\' ∉ c.toList :=
    fun c hc hmem => hs (Text.mem_of_mem_splitOn hc hmem)
  have hall : ∀ c ∈ parts, '\\' ∉ c.toList := by
    apply forall_mem_relativeParts ?_ hforward.start hforward.root ?_ hparts
    · exact fun q target htarget => hpieces (hforward.links q target htarget)
    · intro c hc
      have hread : '\\' ∉ (Text.replaceChar '\\' "/" file).toList := Text.not_mem_replaceChar (by decide) file
      exact hpieces hread c (Path.mem_splitOn_of_mem_ofString hc)
  intro hmem
  rcases Path.mem_relativeText hne hmem with hmem | ⟨c, hc, hmem⟩
  · exact absurd hmem (by decide)
  · exact hall c hc hmem

/-! ## Issues -/

/-- The positions of an issue obey the rules for issues, whatever the positions of the finding are. -/
theorem valid_issueWith {id : String} (hpath : Issue.pathComplaint path = none) (hfix : ∀ f ∈ raw.fix, f.Valid) :
    (p.issueWith id path raw).Valid := by
  have hspan := raw.ordered_span
  exact
    { path := hpath
      startLine := hspan.startLine
      startColumn := hspan.startColumn
      endLine := Int.le_trans hspan.startLine hspan.lines
      endColumn := hspan.endColumn
      span := if_neg (Int.not_lt.mpr hspan.lines)
      fix := hfix }

/-- The identifier of a finding whose line can be written out. -/
def idOf (p : Profile) (path : String) (raw : RawIssue) : String :=
  Text.take 16 (Sha256.hex (keyText path raw.span.startLine raw.ruleName p.tool))

/-- A finding at a line with too many digits has no identifier, and so is no issue. -/
theorem issueAt_eq (p : Profile) (path : String) (raw : RawIssue) : p.issueAt path raw =
    if (Datum.int raw.span.startLine).Fits then .ok (p.issueWith (p.idOf path raw) path raw)
    else .error Decimal.overlong := by
  rw [issueAt, identifier_eq]
  split <;> rfl

/-- What becomes of a finding with a path. Its identifier is made before the path is looked at. -/
theorem issue?_of_path (hsound : t.IsSound) (hroot : ∃ s, p.root = Path.ofString s)
    (h : p.pathOf? t raw = some path) : p.issue? t raw = (p.issueAt path raw).bind fun issue =>
      if '\\' ∈ path.toList then .error (slashFault path) else .ok (some issue) := by
  unfold issue?
  rw [h]
  dsimp only
  rw [pathComplaint_of_pathOf? hsound hroot h]
  by_cases hslash : '\\' ∈ path.toList
  · simp only [if_pos hslash]
    rfl
  · simp only [if_neg hslash]
    rfl

/-- A line that was given and can be written out starts a span that can be written out. -/
theorem fits_span (h : ∀ n ∈ raw.line, (Datum.int n).Fits) : (Datum.int raw.span.startLine).Fits := by
  have hone : (Datum.int 1).Fits := by decide +kernel
  show (Datum.int (max (orElseWhole raw.line 1) 1)).Fits
  rw [Int.max_def]
  split
  · exact hone
  · unfold orElseWhole
    split
    · next n hn =>
      split
      · exact hone
      · exact h n hn
    · exact hone

theorem issue?_of_plain (hsound : t.IsSound) (hroot : ∃ s, p.root = Path.ofString s)
    (h : p.pathOf? t raw = some path) (hfits : (Datum.int raw.span.startLine).Fits) (hslash : '\\' ∉ path.toList) :
    p.issue? t raw = .ok (some (p.issueWith (p.idOf path raw) path raw)) := by
  rw [issue?_of_path hsound hroot h, issueAt_eq, if_pos hfits]
  exact if_neg hslash

/-- What can be wrong with a finding at a path. -/
def faultAt? (path : String) (raw : RawIssue) : Option Breach :=
  if ¬ (Datum.int raw.span.startLine).Fits then some Decimal.overlong
  else if '\\' ∈ path.toList then some (slashFault path)
  else none

theorem faultAt?_eq_none : faultAt? path raw = none ↔
    (Datum.int raw.span.startLine).Fits ∧ '\\' ∉ path.toList := by
  unfold faultAt?
  split
  · next h => simp [h]
  · next h =>
    rw [Decidable.not_not] at h
    simp [h]

theorem faultAt?_eq_some {b : Breach} : faultAt? path raw = some b ↔
    ¬ (Datum.int raw.span.startLine).Fits ∧ b = Decimal.overlong ∨
      (Datum.int raw.span.startLine).Fits ∧ '\\' ∈ path.toList ∧ b = slashFault path := by
  unfold faultAt?
  split
  · next h => simp [h, eq_comm]
  · next h =>
    rw [Decidable.not_not] at h
    simp [h, eq_comm]

theorem issue?_eq_error (hsound : t.IsSound) (hroot : ∃ s, p.root = Path.ofString s) {b : Breach} :
    p.issue? t raw = .error b ↔ ∃ path, p.pathOf? t raw = some path ∧ faultAt? path raw = some b := by
  cases hpath : p.pathOf? t raw with
  | none =>
      have hnone : p.issue? t raw = .ok none := by rw [issue?, hpath]
      simp [hnone]
  | some path =>
      rw [issue?_of_path hsound hroot hpath, issueAt_eq]
      by_cases hfits : (Datum.int raw.span.startLine).Fits
      · by_cases hslash : '\\' ∈ path.toList
        · simp [faultAt?, hfits, hslash, Except.bind]
        · simp [faultAt?, hfits, hslash, Except.bind]
      · simp [faultAt?, hfits, Except.bind]

theorem issue?_isOk (hsound : t.IsSound) (hroot : ∃ s, p.root = Path.ofString s) :
    (∃ found, p.issue? t raw = .ok found) ↔
      ∀ path, p.pathOf? t raw = some path → (Datum.int raw.span.startLine).Fits ∧ '\\' ∉ path.toList := by
  have herror := @issue?_eq_error p t raw hsound hroot
  constructor
  · rintro ⟨found, hfound⟩ path hpath
    rw [← faultAt?_eq_none, Option.eq_none_iff_forall_ne_some]
    intro b hb
    have hfails := herror.mpr ⟨path, hpath, hb⟩
    rw [hfound] at hfails
    exact nomatch hfails
  · intro hplain
    cases hissue : p.issue? t raw with
    | ok found => exact ⟨found, rfl⟩
    | error b =>
        obtain ⟨path, hpath, hfault⟩ := herror.mp hissue
        rw [faultAt?_eq_none.mpr (hplain path hpath)] at hfault
        exact nomatch hfault

/-- No issue is made exactly where no path is found. -/
theorem issue?_eq_none : p.issue? t raw = .ok none ↔ p.pathOf? t raw = none := by
  cases hpath : p.pathOf? t raw with
  | none => simp [issue?, hpath]
  | some path =>
      constructor
      · intro hnone
        rw [issue?, hpath] at hnone
        obtain ⟨issue, -, hnone⟩ := bind_eq_ok.mp hnone
        split at hnone
        · exact nomatch hnone
        · exact nomatch hnone
      · exact nofun

theorem normalizeOne_of_issue? {found : Option Issue} (h : p.issue? t raw = .ok found) :
    ∃ first, p.normalizeOne t options raw = .ok first := by
  cases found with
  | none => exact ⟨{ outsideRoot := 1 }, by rw [normalizeOne, h]; rfl⟩
  | some issue =>
      by_cases hall : (options.all fun o => o.admits issue) = true
      · exact ⟨{ issues := [issue] }, by rw [normalizeOne, h]; exact if_pos hall⟩
      · exact ⟨{ filtered := 1 }, by rw [normalizeOne, h]; exact if_neg hall⟩

/-- A report is normalized exactly if each of its findings becomes an issue or none. -/
theorem normalize_isOk_iff {raws : List RawIssue} :
    (∃ n, p.normalize t options raws = .ok n) ↔ ∀ raw ∈ raws, ∃ found, p.issue? t raw = .ok found := by
  induction raws with
  | nil => simp [normalize]
  | cons raw rest ih =>
      rw [List.forall_mem_cons, ← ih]
      constructor
      · rintro ⟨n, hn⟩
        obtain ⟨first, hfirst, hn⟩ := bind_eq_ok.mp hn
        obtain ⟨others, hothers, -⟩ := bind_eq_ok.mp hn
        obtain ⟨found, hfound, -⟩ := bind_eq_ok.mp hfirst
        exact ⟨⟨found, hfound⟩, others, hothers⟩
      · rintro ⟨⟨found, hfound⟩, others, hothers⟩
        obtain ⟨first, hfirst⟩ := normalizeOne_of_issue? hfound
        exact ⟨first ++ others, by rw [normalize, hfirst, hothers]; rfl⟩

/-- **A finding becomes an issue or none** exactly if no backslash is in the path that is found for it and its
line has few enough digits to be written out; it fails for these two reasons alone, and for the line first. An
issue that it becomes obeys all rules for issues, and a report is lost exactly if one of its findings fails. None
with such a line does where no link and no root holds a backslash. -/
theorem issue?_isOk_iff (hsound : t.IsSound) (hroot : ∃ s, p.root = Path.ofString s) :
    (∀ raw, (∃ found, p.issue? t raw = .ok found) ↔
      ∀ path, p.pathOf? t raw = some path → (Datum.int raw.span.startLine).Fits ∧ '\\' ∉ path.toList) ∧
    (∀ raw b, p.issue? t raw = .error b ↔ ∃ path, p.pathOf? t raw = some path ∧
      (¬ (Datum.int raw.span.startLine).Fits ∧ b = Decimal.overlong ∨
        (Datum.int raw.span.startLine).Fits ∧ '\\' ∈ path.toList ∧ b = slashFault path)) ∧
    (∀ raw, p.issue? t raw = .ok none ↔ p.pathOf? t raw = none) ∧
    (∀ raw issue, (∀ f ∈ raw.fix, f.Valid) → p.issue? t raw = .ok (some issue) → issue.Valid) ∧
    (∀ options raws, (∃ n, p.normalize t options raws = .ok n) ↔
      ∀ raw ∈ raws, ∃ found, p.issue? t raw = .ok found) ∧
    (t.Forward p.root → ∀ raw, (Datum.int raw.span.startLine).Fits → ∃ found, p.issue? t raw = .ok found) := by
  refine ⟨fun raw => issue?_isOk hsound hroot, ?_, fun raw => issue?_eq_none, ?_,
    fun options raws => normalize_isOk_iff, ?_⟩
  · intro raw b
    rw [issue?_eq_error hsound hroot]
    simp only [faultAt?_eq_some]
  · intro raw issue hfix hissue
    obtain ⟨path, id, -, hplain, -, rfl⟩ := issue?_eq_some hissue
    exact valid_issueWith hplain hfix
  · intro hforward raw hfits
    rw [issue?_isOk hsound hroot]
    intro path hpath
    exact ⟨hfits, not_mem_of_forward hsound hroot hforward hpath⟩

/-- What is the same for all findings in C files of a project. -/
def ofProject : Profile :=
  { tool := "clang-static-analyzer", ecosystem := "c", defaultConfidence := .high, root := Path.ofString "/project" }

/-- A finding in a link, with positions that no file has, becomes an issue at the file that the link leads
to. -/
theorem issue?_isOk_iff_alias :
    let t := besideOutside [("alias.c", .link "main.c"), ("main.c", .file (.text "x") false)]
    let raw : RawIssue := { file := some "alias.c", line := some (-3), endColumn := some (-7), title := "x" }
    t.IsSound ∧ t.Forward ofProject.root ∧
      ∃ issue, ofProject.issue? t raw = .ok (some issue) ∧ issue.canonicalPath = "main.c" ∧ issue.Valid := by
  intro t raw
  have hsound : t.IsSound := ⟨by decide, by decide, by decide, by decide⟩
  have hforward : t.Forward ofProject.root := by
    refine ⟨?_, by decide +kernel, by decide +kernel⟩
    intro q target htarget
    have hplaces : t.top.linkPlaces = [["project", "alias.c"]] := by decide +kernel
    have hplace := Node.mem_linkPlaces (target?_eq_some.mp htarget)
    rw [hplaces, List.mem_singleton] at hplace
    subst hplace
    have hlink : t.target? ["project", "alias.c"] = some "main.c" := by decide +kernel
    obtain rfl := Option.some.inj (hlink.symm.trans htarget)
    decide
  have hpath : ofProject.pathOf? t raw = some "main.c" := by decide +kernel
  obtain ⟨-, -, hnone, hvalid, -, hok⟩ := @issue?_isOk_iff ofProject t hsound ⟨"/project", rfl⟩
  obtain ⟨found, hfound⟩ := hok hforward raw (by decide +kernel)
  cases found with
  | none => simp [(hnone raw).mp hfound] at hpath
  | some issue =>
      obtain ⟨path, id, hown, -, -, hissue⟩ := issue?_eq_some hfound
      obtain rfl := Option.some.inj (hown.symm.trans hpath)
      exact ⟨hsound, hforward, issue, hfound, by rw [hissue]; rfl, hvalid raw issue nofun hfound⟩

/-- **A backslash in the target of a link** makes a finding fail, and with it the finding in another file. -/
theorem issue?_fails_at_backslash :
    let t := besideOutside [("alias.c", .link "main\\.c"), ("main\\.c", .file (.text "x") false),
      ("other.c", .file (.text "x") false)]
    let raw : RawIssue := { file := some "alias.c", title := "x" }
    let other : RawIssue := { file := some "other.c", title := "y" }
    t.IsSound ∧ ofProject.pathOf? t raw = some "main\\.c" ∧
      ofProject.issue? t raw = .error (slashFault "main\\.c") ∧
      (∃ issue, ofProject.issue? t other = .ok (some issue) ∧ issue.canonicalPath = "other.c") ∧
      ofProject.normalize t none [raw, other] = .error (slashFault "main\\.c") := by
  intro t raw other
  have hsound : t.IsSound := ⟨by decide, by decide, by decide, by decide⟩
  have hpath : ofProject.pathOf? t raw = some "main\\.c" := by decide +kernel
  have hother : ofProject.pathOf? t other = some "other.c" := by decide +kernel
  have hfails : ofProject.issue? t raw = .error (slashFault "main\\.c") := by
    rw [issue?_eq_error hsound ⟨"/project", rfl⟩]
    exact ⟨_, hpath, faultAt?_eq_some.mpr (.inr ⟨by decide +kernel, by decide, rfl⟩)⟩
  have hfits : (Datum.int other.span.startLine).Fits := by decide +kernel
  refine ⟨hsound, hpath, hfails, ?_, ?_⟩
  · exact ⟨_, issue?_of_plain hsound ⟨"/project", rfl⟩ hother hfits (by decide), rfl⟩
  · rw [normalize, normalizeOne, hfails]
    rfl

end Profile

end Assay

import Assay.Analyzer.Analysis
import Assay.Registry
import Assay.Files.System
import Assay.Proofs.Correlate
import Assay.Proofs.Normalize

/-!
# What is said of every issue

An output is read, its findings are normalized, and the issues are stamped for correlation. Whatever the
output says, an issue that comes out of this is sound: its positions are in order, its path stays in the
project, its severity is not below that of the finding, and it can be correlated.
-/

namespace Assay

open Files

/-! ## From an output to issues -/

namespace Analyzer

/-- The issues that an output leads to. -/
def issuesIn (a : Analyzer) (t : Tree) (request : Request) (version : Option String)
    (options : Option LanguageOptions) (toolRoot : Path) (output : String) :
    Except Failure (List Issue) := do
  let harvest ← a.reader toolRoot output
  let normalized ←
    ((a.profile request version).normalize t options harvest.issues).mapError Failure.breach
  (Issue.annotateAll normalized.issues a.category a.searchRadius).mapError Failure.breach

/-- A raw finding becomes an issue. -/
def Emits (a : Analyzer) (t : Tree) (request : Request) (version : Option String) (raw : RawIssue)
    (i : Issue) : Prop :=
  ∃ j, (a.profile request version).issue? t raw = .ok (some j) ∧
    j.annotate a.category a.searchRadius = .ok i

end Analyzer

/-! ## Sound issues -/

/-- Where an issue stands. -/
def Issue.span (i : Issue) : Span := ⟨i.startLine, i.startColumn, i.endLine, i.endColumn⟩

/-- What holds of the issue of a raw finding. -/
structure Issue.IsSound (options : Option LanguageOptions) (raw : RawIssue) (i : Issue) : Prop where
  span : i.span.IsOrdered
  path : i.canonicalPath ≠ ""
  relative : (Path.ofString i.canonicalPath).isAbsolute = false
  slashes : '\\' ∉ i.canonicalPath.toList
  /-- The path leads down, and not through a denied directory. -/
  inside : ∀ c ∈ Text.splitOn '/' i.canonicalPath, IsName c ∧ c ∉ deniedNames
  severity : raw.severity.rank ≤ i.severity.rank
  threshold : ∀ o ∈ options, o.severityThreshold.rank ≤ i.severity.rank
  tagged : i.ecosystem ∈ i.tags
  tags : i.tags.Nodup ∧ "" ∉ i.tags
  key : i.correlationKey.length = correlationKeyLength ∧ IsHex i.correlationKey
  toolCategory : i.toolCategory ≠ ""
  ecosystem : i.ecosystem ≠ ""
  correlated : i.correlationProblems = []

theorem Language.name_ne_empty (l : Language) : l.name ≠ "" := by
  cases l <;> decide

theorem Analyzer.category_ne_empty : ∀ a ∈ Analyzer.standard, a.category ≠ "" := by
  intro a ha
  simp only [Analyzer.standard, List.mem_cons, List.not_mem_nil, or_false] at ha
  rcases ha with rfl | rfl | rfl | rfl | rfl | rfl | rfl | rfl <;> decide

/-- The tags of an issue are its ecosystem and others, none of them empty. -/
theorem RawIssue.mem_issueTags (raw : RawIssue) {ecosystem : String} (h : ecosystem ≠ "") :
    ecosystem ∈ raw.issueTags ecosystem ∧ "" ∉ raw.issueTags ecosystem := by
  unfold RawIssue.issueTags
  constructor
  · refine mem_distinct.mpr ⟨?_, h⟩
    simp
  · intro hmem
    exact (mem_distinct.mp hmem).2 rfl

theorem LanguageOptions.rank_of_admits {o : LanguageOptions} {i : Issue} (h : o.admits i = true) :
    o.severityThreshold.rank ≤ i.severity.rank := by
  simp only [LanguageOptions.admits, Severity.atLeast, Bool.and_eq_true, decide_eq_true_eq] at h
  exact h.1.1

namespace Analyzer

variable {a : Analyzer} {t : Tree} {request : Request} {version : Option String}
  {options : Option LanguageOptions} {raw : RawIssue} {i : Issue}

/-- Stamping leaves an admitted issue of a raw finding sound. -/
theorem isSound_annotate {stamped : Issue} (ha : a.category ≠ "") (hroot : t.IsCanonical request.projectRoot)
    (hissue : (a.profile request version).issue? t raw = .ok (some i)) (hadmitted : admitted options i)
    (hstamped : i.annotate a.category a.searchRadius = .ok stamped) : stamped.IsSound options raw := by
  obtain ⟨path, id, hpath, hplain, -, rfl⟩ := Profile.issue?_eq_some hissue
  obtain ⟨file, -, hfile⟩ := Option.bind_eq_some_iff.mp hpath
  obtain ⟨hne, hcomponents⟩ := hroot.relativePath hfile
  obtain ⟨-, hslashes, hrelative⟩ := pathComplaint_eq_none hplain
  obtain ⟨-, rfl⟩ := Issue.annotate_eq_ok.mp hstamped
  -- stamping changes none of what follows, except for the key and the category of the tool
  generalize hkey : Text.take correlationKeyLength (Sha256.hex _) = key
  have hlength : key.length = correlationKeyLength := by
    rw [← hkey]
    exact Sha256.length_take_hex _ (by decide)
  have hhex : IsHex key := by
    rw [← hkey]
    exact Sha256.isHex_take_hex _ _
  have hline := raw.ordered_span.startLine
  have hecosystem := orElse_ne_empty (s := raw.ecosystem) request.language.name_ne_empty
  have htags := raw.mem_issueTags hecosystem
  have hthreshold := fun o ho => LanguageOptions.rank_of_admits (hadmitted o ho)
  exact
    { span := raw.ordered_span
      path := hne
      relative := hrelative
      slashes := hslashes
      inside := hcomponents
      severity := Severity.rank_le_lifted ..
      threshold := hthreshold
      tagged := htags.1
      tags := ⟨nodup_distinct _, htags.2⟩
      key := ⟨hlength, hhex⟩
      toolCategory := ha
      ecosystem := hecosystem
      correlated := Issue.correlationProblems_stamped hlength hne hline ha hecosystem }

/-- **Every issue that an output of a tool leads to is sound**: the issues come from findings in the
output, in order, and each is what its finding became. -/
theorem issuesIn_sound (ha : a ∈ standard) (hroot : t.IsCanonical request.projectRoot)
    {toolRoot : Path} {output : String} {issues : List Issue}
    (h : a.issuesIn t request version options toolRoot output = .ok issues) :
    ∃ harvest, a.reader toolRoot output = .ok harvest ∧
      ∃ kept : List RawIssue, kept.Sublist harvest.issues ∧
        List.Forall₂ (fun raw i => a.Emits t request version raw i ∧ i.IsSound options raw)
          kept issues := by
  obtain ⟨harvest, hharvest, h⟩ := bind_eq_ok.mp h
  obtain ⟨n, hn, h⟩ := bind_eq_ok.mp h
  rw [mapError_eq_ok] at hn h
  obtain ⟨kept, hsub, hkept⟩ := Profile.normalize_sublist hn
  refine ⟨harvest, hharvest, kept, hsub, ?_⟩
  rw [Issue.annotateAll_of_normalize hn] at h
  obtain rfl := Except.ok.inj h
  rw [List.forall₂_map_right_iff]
  refine hkept.imp ?_
  rintro raw i ⟨hissue, hadmitted⟩
  have hstamped : i.annotate a.category a.searchRadius = .ok _ :=
    Issue.annotate_eq_ok.mpr ⟨Issue.fits_of_issue? hissue, rfl⟩
  exact ⟨⟨_, hissue, hstamped⟩, isSound_annotate (category_ne_empty a ha) hroot hissue hadmitted hstamped⟩

/-- An output with a finding above the project, and one with a line before the first. -/
def strayOutput : String :=
  "\x7b\"Issues\": [\x7b\"file\": \"../a.go\"\x7d, \x7b\"file\": \"b.go\", \"line\": \"-3\"\x7d]\x7d"

/-- A request to analyse a project in Go. -/
def strayRequest : Request where
  projectRoot := Path.ofString "/work/p"
  language := .go
  options := LanguageOptions.standard 1
  settings := []

theorem issuesIn_sound_stray :
    ∃ issues, gosec.issuesIn (Tree.bareSystem [] "/root") strayRequest none none
        strayRequest.projectRoot strayOutput = .ok issues ∧ issues.length = 1 ∧
      ∃ harvest, gosec.reader strayRequest.projectRoot strayOutput = .ok harvest ∧
        ∃ kept : List RawIssue, kept.Sublist harvest.issues ∧
          List.Forall₂ (fun raw i =>
            gosec.Emits (Tree.bareSystem [] "/root") strayRequest none raw i ∧ i.IsSound none raw)
            kept issues := by
  have hone : (gosec.issuesIn (Tree.bareSystem [] "/root") strayRequest none none
      strayRequest.projectRoot strayOutput).toOption.map List.length = some 1 := by
    decide +kernel
  obtain ⟨issues, hissues, hlength⟩ := Option.map_eq_some_iff.mp hone
  have hok : gosec.issuesIn (Tree.bareSystem [] "/root") strayRequest none none
      strayRequest.projectRoot strayOutput = .ok issues := by
    revert hissues
    cases gosec.issuesIn (Tree.bareSystem [] "/root") strayRequest none none
      strayRequest.projectRoot strayOutput with
    | error f => simp [Except.toOption]
    | ok found => simp [Except.toOption]
  have hroot : (Tree.bareSystem [] "/root").IsCanonical strayRequest.projectRoot :=
    ⟨⟨"/work/p", rfl⟩, by decide +kernel⟩
  exact ⟨issues, hok, hlength, issuesIn_sound (by simp [standard]) hroot hok⟩

end Analyzer

end Assay

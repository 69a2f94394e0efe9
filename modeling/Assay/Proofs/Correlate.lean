import Assay.Correlate
import Assay.Proofs.Digest
import Assay.Proofs.Normalize

/-!
# Stamped issues

An issue is stamped unless its line has too many digits to be written out (`Issue.annotate_eq`), and nothing
keeps a stamped issue from being correlated that has a place and its categories
(`Issue.correlationProblems_stamped`). A stamp changes nothing else of an issue, adds to its patterns those that
follow from the rest of it, and stays as it is when the issue is stamped again (`Issue.annotate_spec`).
-/

namespace Assay.Issue

variable {i : Issue} {toolCategory : String} {radius : SearchRadius}

/-! ## Key and problems -/

/-- The text that is hashed for the key of an issue. -/
def correlationText (i : Issue) : String :=
  keyText i.canonicalPath i.startLine (Vocabulary.name i.category) i.toolName

/-- **An issue is stamped** exactly if its first line has few enough digits to be written out. -/
theorem annotate_eq (i : Issue) (toolCategory : String) (radius : SearchRadius) :
    i.annotate toolCategory radius =
      if (Datum.int i.startLine).Fits then
        .ok (i.stamped (Text.take correlationKeyLength (Sha256.hex i.correlationText)) toolCategory radius)
      else .error Decimal.overlong := by
  rw [annotate, Assay.correlationKey, correlationKeyOf, stableHash_keyParts]
  split <;> rfl

theorem annotate_eq_ok {stamped : Issue} : i.annotate toolCategory radius = .ok stamped ↔
    (Datum.int i.startLine).Fits ∧
      stamped = i.stamped (Text.take correlationKeyLength (Sha256.hex i.correlationText)) toolCategory radius := by
  rw [annotate_eq]
  split
  · next h => simp [h, eq_comm]
  · next h => simp [h]

/-- Nothing keeps an issue with a key from being correlated that has a place and its categories. -/
theorem correlationProblems_stamped {key : String} (hkey : key.length = correlationKeyLength)
    (hpath : i.canonicalPath ≠ "") (hline : 1 ≤ i.startLine)
    (hcategory : toolCategory ≠ "") (hecosystem : i.ecosystem ≠ "") :
    (i.stamped key toolCategory radius).correlationProblems = [] := by
  have hne : key.isEmpty = false := by
    rw [String.isEmpty_eq_false_iff]
    intro h
    rw [h] at hkey
    exact absurd hkey (by decide)
  have hstart : ¬ i.startLine < 1 := by omega
  unfold correlationProblems
  simp [stamped, patternIf, hne, hkey, hpath, hstart, hcategory, hecosystem]

/-! ## All issues of a run -/

section Normalized

variable {p : Profile} {t : Files.Tree} {options : Option LanguageOptions} {raw : RawIssue} {raws : List RawIssue}
  {n : Normalized}

/-- The line of an issue that a finding became can be written out. -/
theorem fits_of_issue? (h : p.issue? t raw = .ok (some i)) : (Datum.int i.startLine).Fits := by
  obtain ⟨path, id, -, -, hid, rfl⟩ := Profile.issue?_eq_some h
  exact (identifier_eq_ok.mp hid).1

/-- **Issues that findings are normalized to are stamped**, each of them. -/
theorem annotateAll_of_normalize (h : p.normalize t options raws = .ok n) (toolCategory : String)
    (radius : SearchRadius) : annotateAll n.issues toolCategory radius = .ok (n.issues.map fun i =>
      i.stamped (Text.take correlationKeyLength (Sha256.hex i.correlationText)) toolCategory radius) := by
  refine mapM_eq_ok_map fun i hi => annotate_eq_ok.mpr ⟨?_, rfl⟩
  obtain ⟨raw, -, hissue⟩ := Profile.exists_of_mem_issues h hi
  exact fits_of_issue? hissue

end Normalized

/-! ## Patterns -/

/-- The patterns that follow from the rest of an issue: those of the rules of its tool and those of its
category. -/
def impliedPatterns (i : Issue) : List String :=
  i.toolPatterns ++ i.category.patterns ++
    patternIf (i.category == .security && i.severity == .critical) "critical_security" ++
    patternIf ((i.category == .security || i.category == .vulnerability) &&
      mentionsCrypto i.subcategory.toList) "weak_crypto"

/-- The patterns of an issue are its own ones, and behind them those that follow and are not among them. -/
theorem patterns_eq (i : Issue) : i.patterns =
    i.crossToolPatterns.eraseDups ++ (i.impliedPatterns.removeAll i.crossToolPatterns).eraseDups := by
  rw [← List.eraseDups_append, patterns, impliedPatterns]
  simp only [List.append_assoc]

theorem mem_removeAll_iff {implied own : List String} {p : String} :
    p ∈ (implied.removeAll own).eraseDups ↔ p ∈ implied ∧ p ∉ own := by
  simp [List.removeAll, List.mem_eraseDups]

theorem mem_patterns {p : String} : p ∈ i.patterns ↔ p ∈ i.crossToolPatterns ∨ p ∈ i.impliedPatterns := by
  rw [patterns_eq, List.mem_append, List.mem_eraseDups, mem_removeAll_iff]
  tauto

theorem nodup_patterns (i : Issue) : i.patterns.Nodup := (isFirsts_eraseDups _).nodup

@[simp] theorem crossToolPatterns_stamped (i : Issue) (key toolCategory : String) (radius : SearchRadius) :
    (i.stamped key toolCategory radius).crossToolPatterns = i.patterns := by
  rw [stamped]

/-- What follows from an issue does not depend on its stamp. -/
@[simp] theorem impliedPatterns_stamped (i : Issue) (key toolCategory : String) (radius : SearchRadius) :
    (i.stamped key toolCategory radius).impliedPatterns = i.impliedPatterns := by
  simp only [impliedPatterns, toolPatterns, stamped]

/-- **No pattern is added a second time**: what follows from a stamped issue followed before, and is among its
patterns. -/
theorem patterns_stamped (i : Issue) (key toolCategory : String) (radius : SearchRadius) :
    (i.stamped key toolCategory radius).patterns = i.patterns := by
  have hknown : i.impliedPatterns.removeAll i.patterns = [] := by
    rw [List.removeAll, List.filter_eq_nil_iff]
    intro p hp
    simpa using mem_patterns.mpr (.inr hp)
  rw [patterns_eq, crossToolPatterns_stamped, impliedPatterns_stamped, hknown,
    eraseDups_of_nodup i.nodup_patterns, List.eraseDups_nil, List.append_nil]

theorem stamped_stamped (i : Issue) (key toolCategory : String) (radius : SearchRadius) :
    (i.stamped key toolCategory radius).stamped key toolCategory radius = i.stamped key toolCategory radius := by
  conv_lhs => rw [stamped, i.patterns_stamped key toolCategory radius]
  simp only [stamped]

/-- A second stamp like the first changes nothing. -/
theorem annotate_annotate {stamped : Issue} (h : i.annotate toolCategory radius = .ok stamped) :
    stamped.annotate toolCategory radius = .ok stamped := by
  obtain ⟨hfits, rfl⟩ := annotate_eq_ok.mp h
  -- the key is made of fields that a stamp leaves alone
  have hsame (key : String) : (i.stamped key toolCategory radius).correlationText = i.correlationText := rfl
  have hline (key : String) : (i.stamped key toolCategory radius).startLine = i.startLine := rfl
  rw [annotate_eq_ok, hline, hsame, stamped_stamped]
  exact ⟨hfits, rfl⟩

/-- **What a stamp is.** The patterns that are derived from an issue, whatever its line, are told once each: first
those of the issue, in the order of their first occurrences, then those that follow from the rest of it. A stamp
is made exactly if the line of the issue has few enough digits to be written out. It changes the key, the category
of the tool, the patterns and the hints, and nothing else; the patterns become those that are derived, and the
hints tell the same ones. A second stamp like the first changes nothing. -/
theorem annotate_spec (i : Issue) (toolCategory : String) (radius : SearchRadius) :
    i.patterns.Nodup ∧
    (∃ own others, i.patterns = own ++ others ∧ IsFirsts own i.crossToolPatterns ∧
      ∀ p, p ∈ others ↔ p ∈ i.impliedPatterns ∧ p ∉ i.crossToolPatterns) ∧
    ((∃ stamped, i.annotate toolCategory radius = .ok stamped) ↔ (Datum.int i.startLine).Fits) ∧
    (∀ b, i.annotate toolCategory radius = .error b → b = Decimal.overlong) ∧
    ∀ stamped, i.annotate toolCategory radius = .ok stamped →
      { stamped with
          correlationKey := i.correlationKey
          toolCategory := i.toolCategory
          crossToolPatterns := i.crossToolPatterns
          correlationHints := i.correlationHints } = i ∧
      stamped.toolCategory = toolCategory ∧
      stamped.crossToolPatterns = i.patterns ∧
      stamped.correlationHints = { searchRadius := radius, crossToolPatterns := i.patterns } ∧
      stamped.annotate toolCategory radius = .ok stamped := by
  refine ⟨i.nodup_patterns, ?_, ?_, ?_, ?_⟩
  · exact ⟨_, _, i.patterns_eq, isFirsts_eraseDups _, fun p => mem_removeAll_iff⟩
  · simp [annotate_eq_ok]
  · intro b hb
    rw [annotate_eq] at hb
    split at hb
    · exact nomatch hb
    · exact (Except.error.inj hb).symm
  · intro stamped h
    have hagain := annotate_annotate h
    obtain ⟨-, rfl⟩ := annotate_eq_ok.mp h
    refine ⟨?_, rfl, rfl, rfl, hagain⟩
    simp only [Issue.stamped]

/-- Credentials in the source, with patterns of their own. -/
def credentials : Issue :=
  { (default : Issue) with
    toolName := "gosec", subcategory := "G101", category := .security, severity := .critical, startLine := 3
    crossToolPatterns := ["critical_security", "leak", "critical_security"] }

/-- The own patterns stand in front, once each. At a line with too many digits there is no stamp. -/
theorem annotate_spec_credentials :
    (∃ stamped, credentials.annotate "security" = .ok stamped ∧ stamped.startLine = 3 ∧
      stamped.crossToolPatterns =
        ["critical_security", "leak", "hardcoded_credentials", "security_vulnerability"]) ∧
    ¬ ∃ stamped, { credentials with startLine := (10 ^ Decimal.maxWholeDigits : Nat) }.annotate "security" =
      .ok stamped := by
  constructor
  · obtain ⟨-, -, hstamps, -, hkeeps⟩ := annotate_spec credentials "security" {}
    obtain ⟨stamped, h⟩ := hstamps.mpr (by decide +kernel)
    obtain ⟨hsame, -⟩ := hkeeps stamped h
    obtain ⟨-, rfl⟩ := annotate_eq_ok.mp h
    exact ⟨_, h, congrArg Issue.startLine hsame, by decide +kernel⟩
  · rw [(annotate_spec _ "security" {}).2.2.1, Datum.fits_int, Int.natAbs_natCast]
    exact Nat.lt_irrefl _

end Assay.Issue

import Assay.Proofs.Correlate
import Assay.Proofs.Schema.Issues

/-!
# What a correlation key tells

The key of an issue is the beginning of the hash of one text, made of path, line, category and tool. The path
may hold anything, bars and digits too; the category holds no bar, and neither does a tool that is to be told
apart. Then the text tells the four (`KeyFields.text_inj`), and as far as the beginnings of hashes are
faithful, so does the key of a stamped issue. The main result is `correlationKey_spec`.
-/

namespace Assay

namespace Category

theorem name_injective : Function.Injective fun c : Category => Vocabulary.name c := by
  intro c d h
  have hread := congrArg (Vocabulary.ofName? (α := Category)) h
  rwa [c.ofName?_name, d.ofName?_name, Option.some_inj] at hread

theorem bars_name (c : Category) : bars (Vocabulary.name c) = 0 := by
  cases c <;> decide

end Category

/-- The beginnings of the hashes tell these texts apart. -/
def Sha256.IsFaithful (digits : Nat) (texts : List String) : Prop :=
  ∀ s ∈ texts, ∀ t ∈ texts, Text.take digits (hex s) = Text.take digits (hex t) → s = t

/-- What a correlation key is made of. -/
structure KeyFields where
  path : String
  line : Int
  category : Category
  tool : String
deriving DecidableEq

namespace KeyFields

/-- The text that is hashed. -/
def text (fields : KeyFields) : String :=
  keyText fields.path fields.line (Vocabulary.name fields.category) fields.tool

/-- The key, if there is one. -/
def key (fields : KeyFields) : Except Breach String :=
  correlationKey fields.path fields.line fields.category fields.tool

variable {p q : KeyFields}

theorem key_eq (p : KeyFields) : p.key =
    if (Datum.int p.line).Fits then .ok (Text.take correlationKeyLength (Sha256.hex p.text))
    else .error Decimal.overlong := by
  rw [key, correlationKey, correlationKeyOf, stableHash_keyParts, text]

theorem key_eq_ok {k : String} (h : p.key = .ok k) : k = Text.take correlationKeyLength (Sha256.hex p.text) := by
  rw [key_eq] at h
  split at h
  · exact (Except.ok.inj h).symm
  · exact nomatch h

/-- **The text tells the fields**, if the tools hold no bar. -/
theorem text_inj (hp : '|' ∉ p.tool.toList) (hq : '|' ∉ q.tool.toList) (h : p.text = q.text) : p = q := by
  have hcategory : bars (Vocabulary.name p.category) = bars (Vocabulary.name q.category) := by
    rw [p.category.bars_name, q.category.bars_name]
  have htool : bars p.tool = bars q.tool := by
    rw [bars_eq_zero.mpr hp, bars_eq_zero.mpr hq]
  obtain ⟨hpath, hline, hname, htool⟩ := keyText_inj hcategory htool h
  cases p
  cases q
  simp only [mk.injEq]
  exact ⟨hpath, hline, Category.name_injective hname, htool⟩

end KeyFields

/-- What the key of an issue is made of. -/
def Issue.keyFields (i : Issue) : KeyFields where
  path := i.canonicalPath
  line := i.startLine
  category := i.category
  tool := i.toolName

theorem Issue.key_of_annotate {i stamped : Issue} {toolCategory : String} {radius : SearchRadius}
    (h : i.annotate toolCategory radius = .ok stamped) : i.keyFields.key = .ok stamped.correlationKey := by
  obtain ⟨hfits, rfl⟩ := Issue.annotate_eq_ok.mp h
  have hline : (Datum.int i.keyFields.line).Fits := hfits
  rw [KeyFields.key_eq, if_pos hline]
  rfl

/-- **A correlation key** is the beginning of the hash of a text, unless the line has too many digits to be
written out, and the text tells path, line, category and tool. So among issues for whose texts the beginnings of
hashes are faithful, two stamped ones have one key exactly if they agree in these four. -/
theorem correlationKey_spec :
    (∀ p : KeyFields, p.key =
      if (Datum.int p.line).Fits then .ok (Text.take correlationKeyLength (Sha256.hex p.text))
      else .error Decimal.overlong) ∧
    (∀ p q : KeyFields, '|' ∉ p.tool.toList → '|' ∉ q.tool.toList → (p.text = q.text ↔ p = q)) ∧
    ∀ issues : List Issue, (∀ i ∈ issues, '|' ∉ i.toolName.toList) →
      Sha256.IsFaithful correlationKeyLength (issues.map fun i => i.keyFields.text) →
      ∀ i ∈ issues, ∀ j ∈ issues, ∀ (toolCategory toolCategory' : String) (radius radius' : SearchRadius)
        (stamped stamped' : Issue), i.annotate toolCategory radius = .ok stamped →
        j.annotate toolCategory' radius' = .ok stamped' →
        (stamped.correlationKey = stamped'.correlationKey ↔ i.keyFields = j.keyFields) := by
  refine ⟨KeyFields.key_eq, fun p q hp hq => ⟨KeyFields.text_inj hp hq, fun h => by rw [h]⟩, ?_⟩
  intro issues htools hfaithful i hi j hj toolCategory toolCategory' radius radius' stamped stamped' hstamped hstamped'
  have hkey := Issue.key_of_annotate hstamped
  have hkey' := Issue.key_of_annotate hstamped'
  constructor
  · intro h
    rw [KeyFields.key_eq_ok hkey, KeyFields.key_eq_ok hkey'] at h
    have htext := hfaithful _ (List.mem_map_of_mem hi) _ (List.mem_map_of_mem hj) h
    exact KeyFields.text_inj (htools i hi) (htools j hj) htext
  · intro h
    rw [h] at hkey
    exact Except.ok.inj (hkey.symm.trans hkey')

/-- The path of one issue is the beginning of what is hashed for the other, bars and digits included. -/
theorem correlationKey_spec_bars :
    let plain : Issue := { (default : Issue) with canonicalPath := "a", startLine := 1, toolName := "gosec" }
    let barred : Issue := { plain with canonicalPath := "a|1|security" }
    ∃ stamped stamped', plain.annotate "security" = .ok stamped ∧ barred.annotate "security" = .ok stamped' ∧
      stamped.correlationKey ≠ stamped'.correlationKey := by
  intro plain barred
  have htools : ∀ i ∈ [plain, barred], '|' ∉ i.toolName.toList := by decide
  have hfaithful : Sha256.IsFaithful correlationKeyLength ([plain, barred].map fun i => i.keyFields.text) := by
    have hne : Text.take 32 (Sha256.hex plain.keyFields.text) ≠ Text.take 32 (Sha256.hex barred.keyFields.text) := by
      decide +kernel
    intro s hs t ht heq
    simp only [List.map_cons, List.map_nil, List.mem_cons, List.not_mem_nil, or_false] at hs ht
    rcases hs with rfl | rfl <;> rcases ht with rfl | rfl
    · rfl
    · exact absurd heq hne
    · exact absurd heq.symm hne
    · rfl
  have hfits : (Datum.int 1).Fits := by decide +kernel
  have hplain : plain.annotate "security" = .ok _ := Issue.annotate_eq_ok.mpr ⟨hfits, rfl⟩
  have hbarred : barred.annotate "security" = .ok _ := Issue.annotate_eq_ok.mpr ⟨hfits, rfl⟩
  refine ⟨_, _, hplain, hbarred, fun h => ?_⟩
  obtain ⟨-, -, hkeys⟩ := correlationKey_spec
  have hfields := (hkeys _ htools hfaithful plain (by simp) barred (by simp) _ _ _ _ _ _ hplain hbarred).mp h
  exact absurd hfields (by decide)

end Assay

import Assay.Registry
import Assay.Proofs.Datum
import Assay.Proofs.Decimal.Text
import Assay.Proofs.Readers.Code
import Assay.Proofs.Sandbox.Policy

/-!
# Settings that are accepted

A tool accepts settings if it knows every option, every value is of the right kind, and the tool has no
complaint about the values (`checkSettings_eq_ok`). The values that end up in arguments are plain then: codes
and names of rules, numbers, definitions for the preprocessor and language standards hold no character that
means something to a shell.
-/

namespace Assay

open Sandbox

namespace Readers

/-! ## Plain values -/

theorem isPlain_of_isCode {k : CodedTool} {s : String} (h : k.isCode s = true) : IsPlain s := by
  have hshapes : ∀ shape ∈ k.shapes, ∀ part ∈ shape, IsPlain part.1 := by
    cases k <;> decide
  obtain ⟨shape, hshape, hs⟩ := CodedTool.isCode_iff.mp h
  refine hs.forall_mem (fun c hc => ?_) (by decide) (hshapes shape hshape)
  exact not_mem_refusedMarks (by decide) hc

theorem isPlain_of_clippyLint? {s : String} (h : (clippyLint? s).isSome = true) : IsPlain s := by
  unfold clippyLint? at h
  dsimp only at h
  split at h
  · next hstart =>
    split at h
    · next hname =>
      rw [Bool.and_eq_true, List.all_eq_true] at hname
      intro c hc
      -- the beginning that all lints share, and the name with a line feed at most behind it
      rw [Text.eq_append_of_startsWith hstart, List.mem_append] at hc
      rcases hc with hc | hc
      · exact (by decide : IsPlain "clippy::") c hc
      · rcases Text.mem_beforeLastFeed hc with rfl | hc
        · decide
        · exact not_mem_refusedMarks (by decide) (hname.2 c hc)
    · simp at h
  · simp at h

/-- A name, with a line feed at most behind it, is plain if its first character and the others are. -/
theorem isPlain_of_name {s : String} {first others : Char → Bool} (hfirst : refusedMarks.any first = false)
    (hothers : refusedMarks.any others = false)
    (h : (match Text.beforeLastFeed s.toList with
      | c :: rest => first c && rest.all others
      | [] => false) = true) : IsPlain s := by
  intro c hc
  rcases Text.mem_beforeLastFeed hc with rfl | hc
  · decide
  · split at h
    · next d rest hname =>
      rw [Bool.and_eq_true, List.all_eq_true] at h
      rw [hname] at hc
      rcases List.mem_cons.mp hc with rfl | hc
      · exact not_mem_refusedMarks hfirst h.1
      · exact not_mem_refusedMarks hothers (h.2 c hc)
    · simp at h

theorem isPlain_of_isMessageName {s : String} (h : isMessageName s = true) : IsPlain s :=
  isPlain_of_name (by decide) (by decide) h

theorem isPlain_of_isCompilerCode {s : String} (h : isCompilerCode s = true) : IsPlain s := by
  rw [isCompilerCode, Bool.or_eq_true] at h
  rcases h with h | h
  · have hseries : ∀ part ∈ [("E", 4)], IsPlain part.1 := List.forall_mem_singleton.mpr (by decide)
    refine (isNumbered_iff.mp h).forall_mem (fun c hc => ?_) (by decide) hseries
    exact not_mem_refusedMarks (by decide) hc
  · exact isPlain_of_name (by decide) (by decide) h

end Readers

theorem isPlain_natText (n : Nat) : IsPlain (Decimal.natText n) := by
  intro c hc
  rw [Decimal.toList_natText] at hc
  have hdigit := Decimal.isAsciiDigit_of_mem_toDigits hc
  exact not_mem_refusedMarks (by decide) hdigit

theorem isPlain_intText (n : Int) : IsPlain (Decimal.intText n) := by
  intro c hc
  rcases Decimal.mem_intText hc with rfl | hdigit
  · decide
  · exact not_mem_refusedMarks (by decide) hdigit

namespace Analyzer

variable {a : Analyzer} {task : Task} {settings : ToolSettings} {name : String}

/-! ## Accepted settings -/

theorem checkSettings_eq_ok : a.checkSettings settings = .ok () ↔
    (∀ option ∈ settings, a.kindComplaint option = none) ∧ a.complaint settings = none := by
  unfold checkSettings settingsComplaint
  rw [← List.findSome?_eq_none_iff]
  cases settings.findSome? a.kindComplaint <;> cases a.complaint settings <;> simp

/-- An option that the tool does not know has no items. -/
theorem settingItems_eq_nil (h : a.checkSettings settings = .ok ())
    (hname : a.optionKinds.lookup name = none) : settingItems settings name = [] := by
  unfold settingItems
  split
  · next items hlookup =>
    have hkind := (checkSettings_eq_ok.mp h).1 _ (Datum.mem_of_lookup hlookup)
    rw [kindComplaint, hname] at hkind
    simp at hkind
  · rfl

theorem exists_of_entryComplaint {holds : String → Bool} (h : entryComplaint settings holds name = none) :
    ∀ d ∈ settingItems settings name, ∃ s, d = .text s ∧ holds s = true := by
  intro d hd
  rw [entryComplaint, Option.map_eq_none_iff, List.find?_eq_none] at h
  have hentry := h d hd
  cases d with
  | text s => exact ⟨s, rfl, by simpa [isTextWith] using hentry⟩
  | _ => simp [isTextWith] at hentry

/-- The entries of an option are plain if what is asked of them makes them so. -/
theorem isPlain_of_mem_settingTexts {holds : String → Bool} (hplain : ∀ s, holds s = true → IsPlain s)
    (h : entryComplaint task.settings holds name = none) : ∀ s ∈ settingTexts task name, IsPlain s := by
  intro s hs
  obtain ⟨d, hd, rfl⟩ := List.mem_map.mp hs
  obtain ⟨s, rfl, hholds⟩ := exists_of_entryComplaint h d hd
  exact hplain s hholds

theorem isPlain_of_isDefine {d : Datum} (h : isDefine d = true) : IsPlain d.display := by
  cases d with
  | text s =>
      rw [isDefine] at h
      rw [Bool.and_eq_true, List.all_eq_true] at h
      intro c hc
      by_cases hmark : c = '_' ∨ c = '='
      · rcases hmark with rfl | rfl <;> decide
      · rw [not_or] at hmark
        exact not_mem_refusedMarks (by decide)
          (h.2 c (List.mem_filter.mpr ⟨hc, by simpa using hmark⟩))
  | _ => simp [isDefine] at h

theorem isPlain_of_standardComplaint (h : standardComplaint settings name = none) {standard : String}
    (hstandard : IsPlain standard) : IsPlain ((settingText? settings name).getD standard) := by
  have hall : ∀ s ∈ languageStandards, IsPlain s := by decide
  unfold standardComplaint at h
  split at h
  · next s hs =>
    rw [hs, Option.getD_some]
    split at h
    · next hmem => exact hall s (List.contains_iff_mem.mp hmem)
    · simp at h
  · next hnone =>
    rw [hnone]
    exact hstandard

end Analyzer

end Assay

import Mathlib.Data.List.Induction
import Mathlib.Data.List.Nodup
import Assay.Correlate
import Assay.Normalize
import Assay.Proofs.Files.Guard
import Assay.Proofs.Outcome

/-!
# What normalizing guarantees

Whatever a tool reported, an issue has its positions in order (`RawIssue.ordered_span`), a severity at
least that of the raw finding (`Severity.rank_le_lifted`), and tags that are there once each
(`nodup_distinct`): of repeated ones the first occurrences stay (`isFirsts_eraseDups`). The issues of a run
come from its raw findings one by one and in order (`Profile.normalize_sublist`).
-/

namespace Assay

open Files

/-! ## Positions -/

/-- Positions start at one, and an end does not lie before its start. -/
structure Span.IsOrdered (s : Span) : Prop where
  startLine : 1 ≤ s.startLine
  lines : s.startLine ≤ s.endLine
  startColumn : 1 ≤ s.startColumn
  endColumn : 1 ≤ s.endColumn
  columns : s.startLine = s.endLine → s.startColumn ≤ s.endColumn

/-- The positions of a raw finding are brought into order, whatever they are. -/
theorem RawIssue.ordered_span (raw : RawIssue) : raw.span.IsOrdered := by
  unfold RawIssue.span
  constructor
  case startLine | lines | startColumn => dsimp only; omega
  case endColumn =>
    dsimp only
    split <;> omega
  case columns =>
    intro h
    dsimp only at h ⊢
    rw [if_pos (by rw [beq_iff_eq]; exact h.symm)]
    omega

/-! ## Severities -/

theorem Severity.rank_le_raise (s candidate : Severity) : s.rank ≤ (s.raise candidate).rank := by
  unfold Severity.raise
  split <;> omega

/-- Floors never lower a severity. -/
theorem Severity.rank_le_liftedBy (floors : List Floor) (code : String) (s : Severity) :
    s.rank ≤ (s.liftedBy floors code).rank := by
  induction floors generalizing s with
  | nil => exact Nat.le_refl _
  | cons f rest ih =>
      rw [Severity.liftedBy, List.foldl_cons]
      refine Nat.le_trans ?_ (ih _)
      split
      · exact s.rank_le_raise f.severity
      · exact Nat.le_refl _

theorem Severity.rank_le_lifted (table : FloorTable) (tool code : String) (s : Severity) :
    s.rank ≤ (s.lifted table tool code).rank :=
  s.rank_le_liftedBy _ code

/-! ## Repetitions -/

section Firsts

variable {α : Type} [BEq α]

/-- The list keeps everything that stands in another one, each once and in the order of the first
occurrences. -/
structure IsFirsts (kept all : List α) : Prop where
  mem : ∀ a, a ∈ kept ↔ a ∈ all
  ordered : kept.Pairwise fun a b => all.idxOf a < all.idxOf b

theorem IsFirsts.nodup {kept all : List α} (h : IsFirsts kept all) : kept.Nodup := by
  refine h.ordered.imp ?_
  rintro a b hlt rfl
  exact Nat.lt_irrefl _ hlt

variable [LawfulBEq α]

/-- What comes last is kept if it has not come before. -/
theorem eraseDups_concat (all : List α) (a : α) :
    (all ++ [a]).eraseDups = if a ∈ all then all.eraseDups else all.eraseDups ++ [a] := by
  rw [List.eraseDups_append]
  by_cases h : a ∈ all <;> simp [List.removeAll, List.eraseDups_cons, h]

/-- **What is kept of a list without repetitions** are the first occurrences. -/
theorem isFirsts_eraseDups (all : List α) : IsFirsts all.eraseDups all := by
  refine ⟨fun a => List.mem_eraseDups, ?_⟩
  induction all using List.reverseRecOn with
  | nil => exact .nil
  | append_singleton all a ih =>
      -- one more item at the end moves none of the earlier first occurrences
      have hbefore : all.eraseDups.Pairwise fun b c => (all ++ [a]).idxOf b < (all ++ [a]).idxOf c := by
        refine ih.imp_of_mem fun hb hc hlt => ?_
        rw [List.mem_eraseDups] at hb hc
        rwa [List.idxOf_append_of_mem hb, List.idxOf_append_of_mem hc]
      rw [eraseDups_concat]
      split
      · exact hbefore
      · next hnew =>
        rw [List.pairwise_append]
        refine ⟨hbefore, List.pairwise_singleton _ _, fun b hb c hc => ?_⟩
        rw [List.mem_eraseDups] at hb
        rw [List.mem_singleton.mp hc, List.idxOf_append_of_mem hb, List.idxOf_append_of_notMem hnew]
        have hlt := List.idxOf_lt_length_of_mem hb
        omega

/-- A list without repetitions is kept whole. -/
theorem eraseDups_of_nodup {all : List α} (h : all.Nodup) : all.eraseDups = all := by
  induction all with
  | nil => rfl
  | cons a rest ih =>
      obtain ⟨hnew, hrest⟩ := List.nodup_cons.mp h
      have hothers : (rest.filter fun b => !b == a) = rest := by
        rw [List.filter_eq_self]
        intro b hb
        simpa using fun heq : b = a => hnew (heq ▸ hb)
      rw [List.eraseDups_cons, hothers, ih hrest]

end Firsts

/-! ## Tags -/

theorem nodup_distinct (texts : List String) : (distinct texts).Nodup := (isFirsts_eraseDups _).nodup

theorem mem_distinct {texts : List String} {s : String} : s ∈ distinct texts ↔ s ∈ texts ∧ s ≠ "" := by
  simp [distinct, List.mem_eraseDups]

theorem orElse_ne_empty {s : Option String} {fallback : String} (h : fallback ≠ "") :
    orElse s fallback ≠ "" := by
  unfold orElse
  split
  · split
    · exact h
    · simp_all
  · exact h

/-! ## One finding -/

theorem pathComplaint_eq_none {path : String} (h : Issue.pathComplaint path = none) :
    path ≠ "" ∧ '\\' ∉ path.toList ∧ (Path.ofString path).isAbsolute = false := by
  unfold Issue.pathComplaint at h
  split at h
  · simp at h
  next hslashes =>
  dsimp only at h
  split at h
  · simp at h
  next hrelative =>
  simp only [Bool.or_eq_true, not_or, Bool.not_eq_true, String.isEmpty_eq_false_iff] at hslashes hrelative
  refine ⟨hslashes.1, ?_, hrelative.1⟩
  simpa using hslashes.2

/-- What is wrong with the text of names can only be a backslash. -/
theorem pathComplaint_of_names {parts : List String} (hwritable : Writable parts)
    (hnames : ∀ c ∈ parts, IsName c) (hne : parts ≠ []) :
    Issue.pathComplaint (Path.relativeText parts) =
      if '\\' ∈ (Path.relativeText parts).toList then
        some ("canonical path must use forward slashes: " ++ Text.quoted (Path.relativeText parts))
      else none := by
  have hempty : Path.relativeText parts ≠ "" :=
    Path.relativeText_ne_empty hne fun c hc => (hnames c hc).1
  have hpath : Path.ofString (Path.relativeText parts) = ⟨.here, parts⟩ :=
    Path.ofString_relativeText hwritable (fun c hc => ⟨(hnames c hc).1, (hnames c hc).2.1⟩) hne
  have hdots : ".." ∉ parts := fun hmem => (hnames _ hmem).2.2 rfl
  unfold Issue.pathComplaint
  by_cases hslash : '\\' ∈ (Path.relativeText parts).toList
  · rw [if_pos (by simp [hslash]), if_pos hslash]
  · rw [if_neg (by simp [hempty, hslash]), if_neg hslash, hpath]
    exact if_neg (by simp [Path.isAbsolute, hdots])

variable {p : Profile} {t : Tree} {options : Option LanguageOptions} {raw : RawIssue}

/-- The issue of a raw finding stands at the path of the finding in the project. -/
theorem Profile.issue?_eq_some {i : Issue} (h : p.issue? t raw = .ok (some i)) :
    ∃ path id, p.pathOf? t raw = some path ∧ Issue.pathComplaint path = none ∧
      identifier path raw.span.startLine raw.ruleName p.tool = .ok id ∧ i = p.issueWith id path raw := by
  unfold Profile.issue? at h
  split at h
  · simp at h
  next path hpath =>
  obtain ⟨issue, hissue, h⟩ := bind_eq_ok.mp h
  obtain ⟨id, hid, hissue⟩ := bind_eq_ok.mp hissue
  split at h
  · exact nomatch h
  next hplain =>
  obtain rfl := Option.some.inj (pure_eq_ok.mp h)
  exact ⟨path, id, hpath, hplain, hid, (pure_eq_ok.mp hissue).symm⟩

/-! ## All findings of a run -/

/-- The options let an issue through, if there are any. -/
def admitted (options : Option LanguageOptions) (i : Issue) : Prop := ∀ o ∈ options, o.admits i = true

/-- What one raw finding adds is its issue, or nothing. -/
theorem Profile.normalizeOne_eq_ok {n : Normalized} (h : p.normalizeOne t options raw = .ok n) :
    n.issues = [] ∨ ∃ i, n.issues = [i] ∧ p.issue? t raw = .ok (some i) ∧ admitted options i := by
  obtain ⟨found, hfound, h⟩ := bind_eq_ok.mp h
  cases found with
  | none =>
      left
      rw [← pure_eq_ok.mp h]
  | some i =>
      dsimp only at h
      split at h
      · next hall =>
        right
        refine ⟨i, by rw [← pure_eq_ok.mp h], hfound, ?_⟩
        intro o ho
        simpa [Option.mem_def.mp ho] using hall
      · left
        rw [← pure_eq_ok.mp h]

/-- **The issues of a run come from its raw findings**, one from each of some of them, in order. -/
theorem Profile.normalize_sublist {raws : List RawIssue} {n : Normalized}
    (h : p.normalize t options raws = .ok n) :
    ∃ kept : List RawIssue, kept.Sublist raws ∧
      List.Forall₂ (fun raw i => p.issue? t raw = .ok (some i) ∧ admitted options i) kept n.issues := by
  induction raws generalizing n with
  | nil =>
      rw [Profile.normalize, Except.ok.injEq] at h
      exact ⟨[], List.Sublist.refl _, by rw [← h]; exact .nil⟩
  | cons raw rest ih =>
      obtain ⟨first, hfirst, h⟩ := bind_eq_ok.mp h
      obtain ⟨others, hothers, h⟩ := bind_eq_ok.mp h
      obtain ⟨kept, hsub, hkept⟩ := ih hothers
      have hissues : n.issues = first.issues ++ others.issues := by
        rw [← pure_eq_ok.mp h]
        rfl
      -- a raw finding yields no issue, and is passed over, or one, and is kept
      rcases Profile.normalizeOne_eq_ok hfirst with hnil | ⟨i, hi, hissue, hadm⟩
      · exact ⟨kept, hsub.cons _, by rw [hissues, hnil]; exact hkept⟩
      · exact ⟨raw :: kept, hsub.cons_cons _, by rw [hissues, hi]; exact .cons ⟨hissue, hadm⟩ hkept⟩

theorem Profile.exists_of_mem_issues {raws : List RawIssue} {n : Normalized} {i : Issue}
    (h : p.normalize t options raws = .ok n) (hi : i ∈ n.issues) : ∃ raw ∈ raws, p.issue? t raw = .ok (some i) := by
  obtain ⟨kept, hsub, hkept⟩ := Profile.normalize_sublist h
  obtain ⟨k, hk, rfl⟩ := List.getElem_of_mem hi
  have hlength : k < kept.length := by rwa [hkept.length_eq]
  exact ⟨kept[k], hsub.subset (List.getElem_mem hlength), (hkept.get hlength hk).1⟩

end Assay

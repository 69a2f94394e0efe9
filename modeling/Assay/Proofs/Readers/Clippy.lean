import Assay.Proofs.Datum
import Assay.Proofs.Outcome
import Assay.Readers.Clippy

/-!
# Levels of lints

The level at which a lint is reported counts twice: it decides the category of a lint that nothing else
places, and the severity within most categories. Both decisions go the same way, since what is left to the
level becomes a matter of correctness as an error, and no category of lints is more severe than that. The
main result, `denied_atLeast`, says that a lint that is denied is reported at least as severe as one that
only warns, for single verdicts as for the findings of whole records, and that nothing else about the finding
tells the two apart.
-/

namespace Assay.Readers

namespace Clippy

/-! ## Verdicts -/

/-- What the name of a lint and its group say about its category. -/
def placed? (lint : String) (group : Option String) : Option Category :=
  (lintCategories.lookup lint).or <|
    (group.bind fun name => groupCategories.lookup name).or <|
      (keywordCategories.find? fun (words, _) => words.any fun word => Text.contains word lint).map (·.2)

/-- Only where the name and the group say nothing, the level decides. -/
theorem category_eq (lint level : String) (group : Option String) :
    category lint level group =
      (placed? lint group).getD (if level == "error" then .correctness else .style) := by
  unfold category placed?
  cases lintCategories.lookup lint with
  | some known => rfl
  | none =>
      cases group.bind fun name => groupCategories.lookup name with
      | some known => rfl
      | none =>
          cases keywordCategories.find? fun (words, _) => words.any fun word => Text.contains word lint with
          | some found => rfl
          | none => rfl

/-- Within a category an error is the worst. -/
theorem rank_severity_le (c : Category) (level : String) :
    (severity c level).rank ≤ (severity c "error").rank := by
  have hif {s t : Severity} (h : t.rank ≤ s.rank) :
      (if level == "error" then s else t).rank ≤ s.rank := by
    split
    · exact Nat.le_refl _
    · exact h
  cases c with
  | correctness => exact Nat.le_refl _
  | complexity => exact Nat.le_refl _
  | performance => exact hif (by decide)
  | _ => exact hif (by decide)

/-- No category is worse than correctness. -/
theorem rank_severity_le_correctness (c : Category) (level : String) :
    (severity c level).rank ≤ (severity .correctness "error").rank := by
  refine Nat.le_trans (rank_severity_le c level) ?_
  cases c with
  | _ => decide

theorem rank_severity_category_le (lint level : String) (group : Option String) :
    (severity (category lint level group) level).rank ≤
      (severity (category lint "error" group) "error").rank := by
  rw [category_eq, category_eq]
  cases placed? lint group with
  | some c => exact rank_severity_le c level
  | none => exact rank_severity_le_correctness _ level

theorem rank_compilerVerdict_le (code level : String) :
    (compilerVerdict code level).2.rank ≤ (compilerVerdict code "error").2.rank := by
  unfold compilerVerdict
  -- the first three tests do not look at the level
  split
  · exact Nat.le_refl _
  · split
    · exact Nat.le_refl _
    · split
      · exact Nat.le_refl _
      · have herror : (Text.hasStart "E" code || "error" == "error") = true := by simp
        rw [if_pos herror]
        split
        · exact Nat.le_refl _
        · show Severity.low.rank ≤ Severity.high.rank
          decide

theorem rank_verdict_le (code level : String) (group : Option String) :
    (verdict code level group).severity.rank ≤ (verdict code "error" group).severity.rank := by
  unfold verdict
  split
  · exact rank_severity_category_le _ level group
  · split
    · exact rank_compilerVerdict_le code level
    · exact Nat.le_refl _

/-- The level says nothing about the rule, its page and what it warns of. -/
theorem verdict_eq (code level : String) (group : Option String) :
    (verdict code level group).rule = (verdict code "error" group).rule ∧
      (verdict code level group).hints = (verdict code "error" group).hints ∧
      (verdict code level group).references = (verdict code "error" group).references := by
  unfold verdict
  split
  · exact ⟨rfl, rfl, rfl⟩
  · split
    · exact ⟨rfl, rfl, rfl⟩
    · exact ⟨rfl, rfl, rfl⟩

/-! ## Findings -/

/-- The second finding is the first one with a severity at least as high; its category and what goes with
that may be others. -/
structure IsMilder (warned denied : RawIssue) : Prop where
  same : denied = { warned with
    severity := denied.severity
    category := denied.category
    confidence := denied.confidence
    tags := denied.tags }
  le : warned.severity.rank ≤ denied.severity.rank

theorem alike_finding (root : Files.Path) (message span : Datum) (code level file : String) :
    Alike IsMilder (finding root message span code level file)
      (finding root message span code "error" file) := by
  obtain ⟨hrule, hhints, hreferences⟩ := verdict_eq code level (groupOf? message)
  unfold finding
  -- every step but the last reads a field and does not look at the level
  refine .step fun line => .step fun column => .step fun endLine => .step fun endColumn =>
    .step fun fix => .ok ⟨?_, rank_verdict_le code level (groupOf? message)⟩
  rw [hrule, hhints, hreferences]

/-! ## Records -/

/-- The value with a key set, if it is a table. -/
def setKey (key : String) (value : Datum) : Datum → Datum
  | .table entries => .table (Datum.insert key value entries)
  | d => d

/-- The record with its diagnostic reported at a level. -/
def reportedAt (level : String) (d : Datum) : Datum :=
  setKey "message" (setKey "level" (.text level) (d.get "message")) d

theorem isTable_setKey (key : String) (value d : Datum) : (setKey key value d).isTable = d.isTable := by
  cases d with
  | _ => rfl

theorem get?_setKey (key name : String) (value d : Datum) : (setKey name value d).get? key =
    if name = key ∧ d.isTable then some value else d.get? key := by
  cases d with
  | table entries =>
      show Datum.lookup key (Datum.insert name value entries) = _
      rw [Datum.insert_eq_alter]
      exact (Entries.get?_alter key name _ entries).trans (by simp [Datum.isTable]; rfl)
  | _ => simp [setKey, Datum.isTable]

theorem get_setKey_of_ne {key name : String} (h : name ≠ key) (value d : Datum) :
    (setKey name value d).get key = d.get key := by
  rw [Datum.get, get?_setKey, if_neg fun hname => h hname.1, Datum.get]

theorem get_reportedAt_message (level : String) (d : Datum) :
    (reportedAt level d).get "message" = setKey "level" (.text level) (d.get "message") := by
  unfold reportedAt
  cases d with
  | table entries => rw [Datum.get, get?_setKey, if_pos ⟨rfl, rfl⟩, Option.getD_some]
  | _ => rfl

/-- The level of a diagnostic is no part of what its finding is otherwise made of. -/
theorem finding_setKey (root : Files.Path) (value message span : Datum) (code level file : String) :
    finding root (setKey "level" value message) span code level file =
      finding root message span code level file := by
  unfold finding groupOf? suggestionSpans
  simp only [get_setKey_of_ne (show "level" ≠ "children" by decide),
    get_setKey_of_ne (show "level" ≠ "spans" by decide), get_setKey_of_ne (show "level" ≠ "message" by decide),
    get_setKey_of_ne (show "level" ≠ "rendered" by decide)]

theorem alike_record (root : Files.Path) (d : Datum) :
    Alike (List.Forall₂ IsMilder) (record root (reportedAt "warning" d)) (record root (reportedAt "error" d)) := by
  have hreason (level : String) : (reportedAt level d).get "reason" = d.get "reason" :=
    get_setKey_of_ne (by decide) _ d
  unfold record
  simp only [hreason, get_reportedAt_message, isTable_setKey]
  split
  · cases htable : (d.get "message").isTable with
    | false => exact .error _
    | true =>
        -- of all that is looked at, only the level itself changes with it
        have hlevel (level : String) :
            (setKey "level" (.text level) (d.get "message")).get? "level" = some (.text level) := by
          rw [get?_setKey, if_pos ⟨rfl, htable⟩]
        have hcode (level : String) : (setKey "level" (.text level) (d.get "message")).dig ["code", "code"] =
            (d.get "message").dig ["code", "code"] := by
          rw [Datum.dig, get_setKey_of_ne (by decide)]
          rfl
        have hspan (level : String) : primarySpan? (setKey "level" (.text level) (d.get "message")) =
            primarySpan? (d.get "message") := by
          rw [primarySpan?, get_setKey_of_ne (by decide), primarySpan?]
        have hwarning : Text.lower (Datum.text "warning").display = "warning" := by decide
        have herror : Text.lower (Datum.text "error").display = "error" := by decide
        simp only [hlevel, hcode, hspan, finding_setKey, Option.getD_some, hwarning, herror, bne_self_eq_false,
          Bool.false_and, Bool.and_false, Bool.not_true, Bool.false_eq_true, if_false]
        split
        · next code span _ _ =>
          cases text (span.get "file_name") with
          | none => exact .error _
          | some file =>
              exact .bind (alike_finding root _ span code "warning" file)
                fun hmilder => .ok (.cons hmilder .nil)
        · exact .ok .nil
  · exact .ok .nil

/-- **Denying a lint never makes its finding less severe**: whatever the name and the group of a lint, and
whatever the code of the compiler, no level gives a higher severity than an error does. So a record is read
alike when its diagnostic only warns and when it is an error, and the finding of the latter is the same one
with a severity at least as high. -/
theorem denied_atLeast :
    (∀ (lint level : String) (group : Option String),
      (severity (category lint level group) level).rank ≤
        (severity (category lint "error" group) "error").rank) ∧
    (∀ code level : String, (compilerVerdict code level).2.rank ≤ (compilerVerdict code "error").2.rank) ∧
    ∀ (root : Files.Path) (d : Datum),
      Alike (List.Forall₂ IsMilder) (record root (reportedAt "warning" d)) (record root (reportedAt "error" d)) :=
  ⟨rank_severity_category_le, rank_compilerVerdict_le, alike_record⟩

end Clippy

end Assay.Readers

import Assay.Proofs.Analyzer.Settings
import Assay.Proofs.Readers.Rules
import Mathlib.Data.List.TakeWhile

/-!
# Plain rules

Seven of the eight tools name a rule only if it is a code of a fixed shape, a name of lint characters, or one
of a table; whatever else they print makes a finding of an unknown rule. So their rules hold no character that
means something to a shell (`Analyzer.hasPlainRule_of_reports`). The eighth one, the analyzer of clang, takes the
name of a checker as it is printed.
-/

namespace Assay

open Sandbox

namespace Readers

variable {P : RawIssue → Prop} {root : Files.Path} {raw : RawIssue} {issues : List RawIssue} {s : String}

/-! ## Readers -/

/-- Whatever output is read, all findings in it have the property. -/
def Yields (P : RawIssue → Prop) (reader : Reader) : Prop :=
  ∀ root output h, reader root output = .ok h → ∀ raw ∈ h.issues, P raw

namespace Yields

theorem ofDocument {read : Files.Path → Datum → Except Breach Harvest}
    (hread : ∀ root d h, read root d = .ok h → ∀ raw ∈ h.issues, P raw) : Yields P (ofDocument read) := by
  intro root output h hok
  obtain ⟨d, -, hok⟩ := bind_eq_ok.mp hok
  split at hok
  · rw [← pure_eq_ok.mp hok]
    exact List.forall_mem_nil _
  · exact hread _ _ _ (mapError_eq_ok.mp hok)

theorem ofLines {read : Files.Path → Datum → Except Breach Harvest}
    (hread : ∀ root d h, read root d = .ok h → ∀ raw ∈ h.issues, P raw) : Yields P (ofLines read) := by
  intro root output h hok
  obtain ⟨⟨documents, broken⟩, -, hok⟩ := bind_eq_ok.mp hok
  obtain ⟨found, hfound, hok⟩ := bind_eq_ok.mp hok
  rw [← pure_eq_ok.mp hok, Harvest.append_issues, List.nil_append]
  exact hread _ _ _ (mapError_eq_ok.mp hfound)

theorem ofTextLines {read : Files.Path → List String → Except Breach Harvest}
    (hread : ∀ root lines h, read root lines = .ok h → ∀ raw ∈ h.issues, P raw) :
    Yields P (ofTextLines read) :=
  fun _ _ _ hok => hread _ _ _ (mapError_eq_ok.mp hok)

theorem ofMarkup {read : Files.Path → Markup.Element → Except Failure Harvest}
    (hread : ∀ root e h, read root e = .ok h → ∀ raw ∈ h.issues, P raw) : Yields P (ofMarkup read) := by
  intro root output h hok
  obtain ⟨e, -, hok⟩ := bind_eq_ok.mp hok
  exact hread _ _ _ hok

end Yields

/-- What all findings of a record have, all of a document have that is read record by record. -/
theorem RecordReader.forall_of_record {k : RecordReader}
    (hrecord : ∀ root r issues, k.record root r = .ok issues → ∀ raw ∈ issues, P raw) :
    ∀ root d h, k.read root d = .ok h → ∀ raw ∈ h.issues, P raw := by
  intro root d h hok raw hraw
  rw [read_eq_harvest] at hok
  obtain ⟨r, -, issues, hissues, hraw⟩ := exists_of_mem_harvest hok hraw
  exact hrecord root r issues hissues raw hraw

/-! ## Rules -/

/-- The rule of the finding is plain, if it names one. -/
def HasPlainRule (raw : RawIssue) : Prop := ∀ rule ∈ raw.rule, IsPlain rule

theorem hasPlainRule_of_eq (hrule : raw.rule = some s) (hs : IsPlain s) : HasPlainRule raw := by
  intro rule h
  rw [hrule] at h
  exact Option.some.inj h ▸ hs

theorem isPlain_unknownRule : IsPlain unknownRule := by decide

theorem CodedTool.isPlain_ruleOf {k : CodedTool} {r : Datum} : IsPlain (k.ruleOf r) := by
  refine ruleOf_cases (fun s hs => ?_) isPlain_unknownRule
  cases k with
  | staticcheck =>
      rw [keeps, Bool.or_eq_true, Bool.and_eq_true, beq_iff_eq] at hs
      rcases hs with rfl | ⟨hcode, -⟩
      · decide
      · exact isPlain_of_isCode (k := staticcheck) hcode
  | gosec => exact isPlain_of_isCode (k := gosec) hs
  | pylint => exact isPlain_of_isCode (k := pylint) hs
  | cargoAudit => exact isPlain_of_isCode (k := cargoAudit) hs

theorem CodedTool.hasPlainRule_of_read {k : CodedTool} :
    ∀ root d h, k.reader.read root d = .ok h → ∀ raw ∈ h.issues, HasPlainRule raw :=
  RecordReader.forall_of_record fun _ _ _ hrecord _ hraw =>
    hasPlainRule_of_eq (of_record hraw hrecord).1 isPlain_ruleOf

theorem Clippy.isPlain_verdict (code level : String) (group : Option String) :
    IsPlain (verdict code level group).rule := by
  unfold verdict
  split
  · next lint hlint => exact isPlain_of_clippyLint? (by simp [hlint])
  · split
    · next hcode => exact .append (by decide) (isPlain_of_isCompilerCode hcode)
    · exact isPlain_unknownRule

theorem Clippy.hasPlainRule_of_finding {message span : Datum} {code level file : String}
    (h : finding root message span code level file = .ok raw) : HasPlainRule raw := by
  obtain ⟨line, -, h⟩ := bind_eq_ok.mp h
  obtain ⟨column, -, h⟩ := bind_eq_ok.mp h
  obtain ⟨endLine, -, h⟩ := bind_eq_ok.mp h
  obtain ⟨endColumn, -, h⟩ := bind_eq_ok.mp h
  obtain ⟨fix, -, h⟩ := bind_eq_ok.mp h
  rw [← pure_eq_ok.mp h]
  exact hasPlainRule_of_eq rfl (isPlain_verdict _ _ _)

theorem Clippy.hasPlainRule_of_record {d : Datum} (h : record root d = .ok issues) :
    ∀ raw ∈ issues, HasPlainRule raw := by
  have hnone (h : (pure [] : Field (List RawIssue)) = .ok issues) : ∀ raw ∈ issues, HasPlainRule raw := by
    rw [← pure_eq_ok.mp h]
    exact List.forall_mem_nil _
  unfold record at h
  split at h
  · obtain ⟨-, h⟩ := guard_eq_ok.mp h
    dsimp only at h
    -- what is reported at another level, without a code or without a place is no finding
    split at h
    · exact hnone h
    · split at h
      · split at h
        · exact nomatch h
        · obtain ⟨raw, hraw, h⟩ := bind_eq_ok.mp h
          rw [← pure_eq_ok.mp h, List.forall_mem_singleton]
          exact hasPlainRule_of_finding hraw
      · exact hnone h
  · exact hnone h

theorem Clippy.hasPlainRule_of_read :
    ∀ root d h, clippy root d = .ok h → ∀ raw ∈ h.issues, HasPlainRule raw :=
  RecordReader.forall_of_record (k := .clippy) fun _ _ _ => hasPlainRule_of_record

theorem Mypy.isPlain_of_splitCode? {cs message : List Char} (h : splitCode? cs = some (message, s)) :
    IsPlain s := by
  unfold splitCode? at h
  split at h
  · next rest _ =>
    dsimp only at h
    split at h
    · split at h
      · exact nomatch h
      · next first others before hcode _ _ =>
        obtain ⟨-, rfl⟩ := Prod.mk.inj (Option.some.inj h)
        intro c hc
        rw [String.toList_ofList, List.mem_reverse] at hc
        exact not_mem_refusedMarks (by decide +kernel) (List.mem_takeWhile_imp hc)
    · exact nomatch h
  · exact nomatch h

theorem Mypy.isPlain_of_line? {cs : List Char} {l : Line} (h : line? cs = some l) :
    ∀ code ∈ l.code, IsPlain code := by
  unfold line? at h
  simp only [Option.bind_eq_bind, Option.bind_eq_some_iff] at h
  obtain ⟨⟨path, rest⟩, -, ⟨line, rest'⟩, -, ⟨column, finish⟩, -, ⟨severity, rest''⟩, -, h⟩ := h
  dsimp only at h
  split at h
  · exact nomatch h
  · obtain rfl := Option.some.inj h
    intro code hcode
    dsimp only at hcode
    split at hcode
    · next message code' hsplit =>
      obtain rfl := Option.some.inj hcode
      exact isPlain_of_splitCode? hsplit
    · exact nomatch hcode

theorem Mypy.hasPlainRule_of_finding {l : Line} (hl : ∀ code ∈ l.code, IsPlain code)
    (h : finding root l = .ok raw) : HasPlainRule raw := by
  obtain ⟨line, -, h⟩ := bind_eq_ok.mp h
  obtain ⟨column, -, h⟩ := bind_eq_ok.mp h
  obtain ⟨endLine, -, h⟩ := bind_eq_ok.mp h
  obtain ⟨endColumn, -, h⟩ := bind_eq_ok.mp h
  rw [← pure_eq_ok.mp h]
  refine hasPlainRule_of_eq rfl ?_
  cases hcode : l.code with
  | none => exact isPlain_unknownRule
  | some code => exact hl code hcode

theorem Mypy.hasPlainRule_of_read {lines : List String} {h : Harvest} (hok : mypy root lines = .ok h) :
    ∀ raw ∈ h.issues, HasPlainRule raw := by
  unfold mypy at hok
  split at hok
  · next issues hissues =>
    obtain rfl := Except.ok.inj hok
    intro raw hraw
    obtain ⟨l, hl, hfinding⟩ := exists_of_mem_mapM hissues raw hraw
    obtain ⟨line, -, hline⟩ := List.mem_filterMap.mp (List.mem_of_mem_filter hl)
    exact hasPlainRule_of_finding (isPlain_of_line? hline) hfinding
  · exact nomatch hok

theorem Valgrind.hasPlainRule_of_record {error : Markup.Element} (h : record root error = .ok issues) :
    ∀ raw ∈ issues, HasPlainRule raw := by
  unfold record at h
  dsimp only at h
  obtain ⟨-, h⟩ := guard_eq_ok.mp h
  obtain ⟨place, -, h⟩ := bind_eq_ok.mp h
  obtain ⟨leaked, -, h⟩ := bind_eq_ok.mp h
  rw [← pure_eq_ok.mp h, List.forall_mem_singleton]
  refine hasPlainRule_of_eq rfl ?_
  generalize Text.strip ((error.findText? ["kind"]).getD "") = kind
  cases hkind : kinds.lookup kind with
  | none => exact isPlain_unknownRule
  | some entry =>
      obtain ⟨before, after, hkinds, -⟩ := List.lookup_eq_some_iff.mp hkind
      have hall : ∀ e ∈ kinds, IsPlain e.2.1 := by decide +kernel
      exact hall (kind, entry) (by simp [hkinds])

theorem Valgrind.hasPlainRule_of_read {document : Markup.Element} {h : Harvest}
    (hok : valgrind root document = .ok h) : ∀ raw ∈ h.issues, HasPlainRule raw := by
  intro raw hraw
  obtain ⟨error, -, issues, hissues, hraw⟩ := exists_of_mem_harvest hok hraw
  exact hasPlainRule_of_record hissues raw hraw

end Readers

namespace Analyzer

open Readers

variable {a : Analyzer} {raw : RawIssue}

/-- The finding stands in some output of the tool. -/
inductive Reports (a : Analyzer) (raw : RawIssue) : Prop where
  | intro {toolRoot : Files.Path} {output : String} {h : Harvest} (read : a.reader toolRoot output = .ok h)
      (found : raw ∈ h.issues)

/-- **The rules that a tool names are plain**, unless the tool is the analyzer of clang. -/
theorem hasPlainRule_of_reports (ha : a ∈ standard) (hname : a.name ≠ clang.name) (h : a.Reports raw) :
    HasPlainRule raw := by
  have hyields : Yields HasPlainRule a.reader := by
    simp only [standard, List.mem_cons, List.not_mem_nil, or_false] at ha
    rcases ha with rfl | rfl | rfl | rfl | rfl | rfl | rfl | rfl
    · exact .ofLines Clippy.hasPlainRule_of_read
    · exact .ofDocument (CodedTool.hasPlainRule_of_read (k := .cargoAudit))
    · exact .ofDocument (CodedTool.hasPlainRule_of_read (k := .gosec))
    · exact .ofLines (CodedTool.hasPlainRule_of_read (k := .staticcheck))
    · exact absurd rfl hname
    · exact .ofMarkup fun _ _ _ hok => Valgrind.hasPlainRule_of_read (mapError_eq_ok.mp hok)
    · exact .ofDocument (CodedTool.hasPlainRule_of_read (k := .pylint))
    · exact .ofTextLines fun _ _ _ => Mypy.hasPlainRule_of_read
  obtain ⟨hread, hraw⟩ := h
  exact hyields _ _ _ hread raw hraw

end Analyzer

end Assay

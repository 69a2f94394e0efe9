import Assay.Normalize
import Assay.Proofs.Readers.Code
import Assay.Proofs.Readers.Records

/-!
# The rules that findings name

Four tools name their rules by codes. What is printed for a code but has no shape of one is not kept, and
the finding counts as one of an unknown rule; so the rules of a tool form a vocabulary, whatever the tool
prints. That vocabulary is larger than it should be: a code with digits of another script or with a line
feed at its end is kept too (`gosec_code_with_feed`). The main result, `rule_closed_iff`, says that nothing
else is: the rule of a finding belongs to the closed vocabulary of the tool if and only if it is written in
plain letters.
-/

namespace Assay.Readers

namespace CodedTool

variable {k : CodedTool} {root : Files.Path} {r : Datum} {s : String}

/-- The reader of what the tool prints. -/
def reader : CodedTool → RecordReader
  | gosec => .gosec
  | staticcheck => .staticcheck
  | pylint => .pylint
  | cargoAudit => .cargoAudit

/-! ## Vocabularies -/

/-- The text names a rule of the tool: none that is known, what a compiler says, or a code that fits one of
the shapes. -/
def Names (k : CodedTool) (fits : List (String × Nat) → List Char → Prop) (s : String) : Prop :=
  s = unknownRule ∨ (k = staticcheck ∧ s = Staticcheck.compileCode) ∨
    ∃ shape ∈ k.shapes, fits shape s.toList

/-- The text belongs to the closed vocabulary of the tool: its digits are those of ASCII, and nothing
follows them. -/
def IsRule (k : CodedTool) (s : String) : Prop := k.Names (Shaped Char.isDigit) s

/-- The fixed texts of the shapes are in plain letters. -/
theorem isPlainLetter_of_mem_shapes : ∀ shape ∈ k.shapes, ∀ part ∈ shape, ∀ c ∈ part.1.toList,
    IsPlainLetter c := by
  cases k with
  | _ => decide

/-- Among the names that fit loosely, the closed ones are those in plain letters. -/
theorem isRule_iff (h : k.Names LooselyShaped s) :
    k.IsRule s ↔ ∀ c ∈ s.toList, IsPlainLetter c := by
  constructor
  · rintro (rfl | ⟨-, rfl⟩ | ⟨shape, hshape, hs⟩)
    · decide
    · decide
    · exact hs.forall_mem (fun _ => isPlainLetter_of_isDigit) (isPlainLetter_of_mem_shapes shape hshape)
  · intro hplain
    rcases h with h | h | ⟨shape, hshape, hs⟩
    · exact .inl h
    · exact .inr (.inl h)
    · exact .inr (.inr ⟨shape, hshape, hs.shaped hplain⟩)

/-! ## The rule of a record -/

/-- What a record prints for a code. -/
def printed? : CodedTool → Datum → Option String
  | gosec, r => text (r.get "rule_id")
  | staticcheck, r => text (r.get "code")
  | pylint, r => (text (r.get "message-id")).or (text (r.get "messageId"))
  | cargoAudit, r => text ((r.get "advisory").get "id")

/-- What is printed is kept as the rule. A check has to be of a known family. -/
def keeps : CodedTool → String → Bool
  | staticcheck, s =>
    s == Staticcheck.compileCode || isStaticcheckCode s && (Staticcheck.family? s).isSome
  | k, s => k.isCode s

/-- The rule of a record. -/
def ruleOf (k : CodedTool) (r : Datum) : String := ((k.printed? r).filter k.keeps).getD unknownRule

/-- The page that a record names itself. -/
def ownPage? : CodedTool → Datum → Option String
  | cargoAudit, r => text ((r.get "advisory").get "url")
  | _, _ => none

/-- The page that describes a rule. -/
def page? (k : CodedTool) (rule : String) : Option String :=
  if k.isCode rule then
    match k with
    | gosec => some (Gosec.rulePage rule)
    | staticcheck => some (Staticcheck.checkPage rule)
    | pylint => none
    | cargoAudit => some (CargoAudit.advisoryPage rule)
  else none

theorem names_of_keeps (h : k.keeps s = true) : k.Names LooselyShaped s := by
  have hcode (h : k.isCode s = true) : k.Names LooselyShaped s := .inr (.inr (isCode_iff.mp h))
  cases k with
  | staticcheck =>
      rw [keeps, Bool.or_eq_true, Bool.and_eq_true, beq_iff_eq] at h
      rcases h with h | ⟨h, -⟩
      · exact .inr (.inl ⟨rfl, h⟩)
      · exact hcode h
  | _ => exact hcode h

/-- A property of all names that are kept and of the unknown one is one of the rule of every record. -/
theorem ruleOf_cases {P : String → Prop} (hkept : ∀ s, k.keeps s = true → P s) (hunknown : P unknownRule) :
    P (k.ruleOf r) := by
  unfold ruleOf
  cases h : (k.printed? r).filter k.keeps with
  | none => exact hunknown
  | some s => exact hkept s (Option.filter_eq_some_iff.mp h).2

theorem names_ruleOf : k.Names LooselyShaped (k.ruleOf r) :=
  ruleOf_cases (fun _ => names_of_keeps) (.inl rfl)

theorem ruleOf_ne_empty : k.ruleOf r ≠ "" := by
  refine ruleOf_cases (P := (· ≠ "")) ?_ (by decide)
  rintro s hkept rfl
  cases k with
  | _ => exact absurd hkept (by decide)

/-- What is said about a check is said about the rule that is kept of it. -/
theorem verdict_eq : (Staticcheck.verdict ((staticcheck.printed? r).getD "")).1 = staticcheck.ruleOf r := by
  have hverdict (s : String) :
      (Staticcheck.verdict s).1 = if staticcheck.keeps s = true then s else unknownRule := by
    unfold Staticcheck.verdict keeps
    by_cases hcompile : s = Staticcheck.compileCode
    · simp [hcompile]
    · rw [if_neg (by simpa using hcompile)]
      by_cases hcode : isStaticcheckCode s = true
      · cases hfamily : Staticcheck.family? s with
        | none => simp [Option.filter, hcompile, hcode, hfamily]
        | some family => simp [Option.filter, hcode, hfamily]
      · simp [Option.filter, hcompile, hcode]
  unfold ruleOf
  cases printed? staticcheck r with
  | none => exact hverdict ""
  | some s =>
      rw [Option.getD_some, hverdict, Option.filter]
      split <;> rfl

/-! ## The finding of a record -/

section Records

variable {issues : List RawIssue} {i : RawIssue} (hi : i ∈ issues)
include hi

theorem of_gosec_record (h : Gosec.record root r = .ok issues) :
    i.rule = some (gosec.ruleOf r) ∧
      i.refs.bind (·.advisoryUrl) = ((gosec.printed? r).filter isGosecCode).map Gosec.rulePage := by
  unfold Gosec.record at h
  split at h
  · exact nomatch h
  · obtain ⟨lines, -, h⟩ := bind_eq_ok.mp h
    obtain ⟨column, -, h⟩ := bind_eq_ok.mp h
    obtain rfl := pure_eq_ok.mp h
    obtain rfl := List.mem_singleton.mp hi
    exact ⟨rfl, rfl⟩

theorem of_staticcheck_record (h : Staticcheck.record root r = .ok issues) :
    i.rule = some (staticcheck.ruleOf r) ∧ i.refs =
      if isStaticcheckCode (staticcheck.ruleOf r) then
        some { advisoryUrl := some (Staticcheck.checkPage (staticcheck.ruleOf r)) } else none := by
  rw [← verdict_eq]
  unfold Staticcheck.record at h
  split at h
  -- what the user ignores is no finding
  · obtain rfl := pure_eq_ok.mp h
    simp at hi
  · obtain ⟨-, h⟩ := guard_eq_ok.mp h
    split at h
    · exact nomatch h
    · obtain ⟨line, -, h⟩ := bind_eq_ok.mp h
      obtain ⟨column, -, h⟩ := bind_eq_ok.mp h
      obtain ⟨endLine, -, h⟩ := bind_eq_ok.mp h
      obtain ⟨endColumn, -, h⟩ := bind_eq_ok.mp h
      obtain rfl := pure_eq_ok.mp h
      obtain rfl := List.mem_singleton.mp hi
      exact ⟨rfl, rfl⟩

theorem of_pylint_record (h : Pylint.record root r = .ok issues) :
    i.rule = some (pylint.ruleOf r) ∧ i.refs = none := by
  unfold Pylint.record at h
  split at h
  · exact nomatch h
  · obtain ⟨column, -, h⟩ := bind_eq_ok.mp h
    obtain ⟨endColumn, -, h⟩ := bind_eq_ok.mp h
    obtain ⟨line, -, h⟩ := bind_eq_ok.mp h
    obtain ⟨endLine, -, h⟩ := bind_eq_ok.mp h
    obtain rfl := pure_eq_ok.mp h
    obtain rfl := List.mem_singleton.mp hi
    exact ⟨rfl, rfl⟩

theorem of_cargoAudit_record (h : CargoAudit.record root r = .ok issues) :
    i.rule = some (cargoAudit.ruleOf r) ∧ i.refs.bind (·.advisoryUrl) = (cargoAudit.ownPage? r).or
      (((cargoAudit.printed? r).filter isAdvisoryId).map CargoAudit.advisoryPage) := by
  unfold CargoAudit.record at h
  obtain ⟨-, h⟩ := guard_eq_ok.mp h
  obtain ⟨patched, -, h⟩ := bind_eq_ok.mp h
  obtain ⟨aliases, -, h⟩ := bind_eq_ok.mp h
  obtain ⟨categories, -, h⟩ := bind_eq_ok.mp h
  obtain rfl := pure_eq_ok.mp h
  obtain rfl := List.mem_singleton.mp hi
  exact ⟨rfl, rfl⟩

omit hi in
/-- A code that is kept has its page, and the unknown rule has none. -/
theorem map_page_filter {code : Option String} {page : String → String} {isCode : String → Bool}
    (hunknown : isCode unknownRule = false) : (code.filter isCode).map page =
      if isCode ((code.filter isCode).getD unknownRule) = true then
        some (page ((code.filter isCode).getD unknownRule)) else none := by
  cases h : code.filter isCode with
  | none => simp [hunknown]
  | some s => simp [(Option.filter_eq_some_iff.mp h).2]

/-- **The finding of a record** names the rule of the record, and the page of that rule unless the record
names a page itself. -/
theorem of_record (h : k.reader.record root r = .ok issues) :
    i.rule = some (k.ruleOf r) ∧
      i.refs.bind (·.advisoryUrl) = (k.ownPage? r).or (k.page? (k.ruleOf r)) := by
  cases k with
  | gosec =>
      obtain ⟨hrule, hpage⟩ := of_gosec_record hi h
      exact ⟨hrule, hpage.trans (map_page_filter (by decide))⟩
  | staticcheck =>
      obtain ⟨hrule, hrefs⟩ := of_staticcheck_record hi h
      refine ⟨hrule, ?_⟩
      rw [hrefs]
      show _ = staticcheck.page? _
      rw [page?, isCode]
      split <;> rfl
  | pylint =>
      obtain ⟨hrule, hrefs⟩ := of_pylint_record hi h
      refine ⟨hrule, ?_⟩
      rw [hrefs]
      show _ = pylint.page? _
      rw [page?]
      split <;> rfl
  | cargoAudit =>
      obtain ⟨hrule, hpage⟩ := of_cargoAudit_record hi h
      exact ⟨hrule, hpage.trans (congrArg _ (map_page_filter (by decide)))⟩

end Records

/-! ## The findings of a document -/

/-- The rule of a finding is that of its issue, wherever the issue lies, and is hashed with it. -/
theorem issueAt_of_rule {i : RawIssue} (hrule : i.rule = some s) (hne : s ≠ "") (p : Profile)
    (path : String) (issue : Issue) (h : p.issueAt path i = .ok issue) : issue.subcategory = s ∧
      identifier path i.span.startLine s p.tool = .ok issue.id := by
  have hname : i.ruleName = s := by simp [RawIssue.ruleName, orElse, hrule, hne]
  obtain ⟨id, hid, h⟩ := bind_eq_ok.mp h
  obtain rfl := pure_eq_ok.mp h
  rw [hname] at hid
  exact ⟨hname, hid⟩

/-- **The rule of every finding** in a document that is read is a code that is printed in the finding's
record, or the unknown one; page, subcategory and hash are made from it. It belongs to the closed vocabulary
of the tool if and only if it is written in plain letters: letters of ASCII, without a line feed. -/
theorem rule_closed_iff (k : CodedTool) (root : Files.Path) (document : Datum) {h : Harvest} {i : RawIssue}
    (hread : k.reader.read root document = .ok h) (hi : i ∈ h.issues) :
    ∃ r ∈ k.reader.records document,
      i.rule = some (k.ruleOf r) ∧ k.Names LooselyShaped (k.ruleOf r) ∧
      (k.IsRule (k.ruleOf r) ↔ ∀ c ∈ (k.ruleOf r).toList, IsPlainLetter c) ∧
      i.refs.bind (·.advisoryUrl) = (k.ownPage? r).or (k.page? (k.ruleOf r)) ∧
      ∀ (p : Profile) (path : String) (issue : Issue), p.issueAt path i = .ok issue →
        issue.subcategory = k.ruleOf r ∧
          identifier path i.span.startLine (k.ruleOf r) p.tool = .ok issue.id := by
  rw [RecordReader.read_eq_harvest] at hread
  obtain ⟨r, hr, issues, hrecord, hi⟩ := exists_of_mem_harvest hread hi
  obtain ⟨hrule, hpage⟩ := of_record hi hrecord
  exact ⟨r, hr, hrule, names_ruleOf, isRule_iff names_ruleOf, hpage,
    issueAt_of_rule hrule ruleOf_ne_empty⟩

/-- Where the tool runs. -/
def workshop : Files.Path := Files.Path.ofString "/work/proj"

/-- What gosec says with this printed for a code. -/
def gosecFinding (code : String) : Datum :=
  RecordReader.gosecDocument [.table [("file", .text "a.go"), ("rule_id", .text code)]]

/-- A document whose findings have one rule has one finding. -/
theorem exists_of_rules_eq (k : CodedTool) (root : Files.Path) (document : Datum) (s : String)
    (h : (k.reader.read root document).toOption.map (fun h => h.issues.map (·.rule)) = some [some s]) :
    ∃ h i, k.reader.read root document = .ok h ∧ i ∈ h.issues ∧ i.rule = some s := by
  cases hread : k.reader.read root document with
  | error b => simp [hread, Except.toOption] at h
  | ok harvest =>
      rw [hread] at h
      obtain ⟨i, hissues, hrule⟩ := List.map_eq_singleton_iff.mp (Option.some.inj h)
      exact ⟨harvest, i, rfl, by simp [hissues], hrule⟩

/-- A printed code in plain letters stands for itself. -/
theorem rule_closed_iff_plain : ∃ h i, gosec.reader.read workshop (gosecFinding "G101") = .ok h ∧
    i ∈ h.issues ∧ i.rule = some "G101" ∧ gosec.IsRule "G101" := by
  obtain ⟨h, i, hread, hi, hrule⟩ :=
    exists_of_rules_eq gosec workshop (gosecFinding "G101") "G101" (by decide)
  obtain ⟨r, -, hruleOf, -, hclosed, -⟩ := rule_closed_iff gosec workshop _ hread hi
  obtain hsame : "G101" = gosec.ruleOf r := Option.some.inj (hrule.symm.trans hruleOf)
  rw [← hsame] at hclosed
  exact ⟨h, i, hread, hi, hrule, hclosed.mpr (by decide)⟩

/-- **A line feed after a code is kept**: the rule of the finding is none of gosec. -/
theorem gosec_code_with_feed : ∃ h i, gosec.reader.read workshop (gosecFinding "G101\n") = .ok h ∧
    i ∈ h.issues ∧ i.rule = some "G101\n" ∧ ¬ gosec.IsRule "G101\n" := by
  obtain ⟨h, i, hread, hi, hrule⟩ :=
    exists_of_rules_eq gosec workshop (gosecFinding "G101\n") "G101\n" (by decide)
  have hloose : gosec.Names LooselyShaped "G101\n" := names_of_keeps (by decide)
  refine ⟨h, i, hread, hi, hrule, ?_⟩
  rw [isRule_iff hloose]
  decide

end CodedTool

end Assay.Readers

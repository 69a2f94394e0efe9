import Assay.Proofs.Acceptance
import Assay.Proofs.Readers.Rules

/-!
# Floors of severities

The floors of a tool lift a severity to the worst of itself and of the floors that cover the code
(`isWorst_lifted`). All else follows: no severity is lowered, order and repetitions of the floors do not
matter, a worse severity stays worse, and what has been lifted stays where it is. The main result,
`lifted_spec`, adds what that means for gosec: the discount for findings that the tool is not sure of comes
before the floors, and cannot bring a finding below them.
-/

namespace Assay

/-- The floors of a tool. -/
def FloorTable.floorsOf (table : FloorTable) (tool : String) : List Floor := (table.lookup tool).getD []

/-- The severities of the floors that cover a code. -/
def covering (floors : List Floor) (code : String) : List Severity :=
  (floors.filter fun f => f.covers code).map (·.severity)

@[simp] theorem covering_nil (code : String) : covering [] code = [] := rfl

theorem covering_cons_of_covers {f : Floor} {code : String} (h : f.covers code = true) (floors : List Floor) :
    covering (f :: floors) code = f.severity :: covering floors code := by
  simp [covering, h]

theorem covering_cons_of_not_covers {f : Floor} {code : String} (h : f.covers code = false)
    (floors : List Floor) : covering (f :: floors) code = covering floors code := by
  simp [covering, h]

theorem mem_covering {floors : List Floor} {code : String} {r : Severity} :
    r ∈ covering floors code ↔ ∃ f ∈ floors, f.covers code = true ∧ f.severity = r := by
  simp [covering, and_assoc]

namespace Severity

variable {row row' : List Severity} {r s s' : Severity} {table table' : FloorTable} {tool code : String}

/-! ## The worst of a row -/

theorem rank_injective : Function.Injective rank := by
  intro s r h
  cases s <;> cases r <;> simp [rank] at h ⊢

/-- The severity is one of a row, and none of the row is worse. -/
structure IsWorst (row : List Severity) (s : Severity) : Prop where
  mem : s ∈ row
  rank_le : ∀ r ∈ row, r.rank ≤ s.rank

/-- Only one severity is the worst of a row. -/
theorem IsWorst.unique (hs : IsWorst row s) (hr : IsWorst row r) : s = r :=
  rank_injective (Nat.le_antisymm (hr.rank_le s hs.mem) (hs.rank_le r hr.mem))

/-- Order and repetitions in the row do not matter. -/
theorem IsWorst.congr (h : ∀ r, r ∈ row ↔ r ∈ row') (hs : IsWorst row s) : IsWorst row' s where
  mem := (h s).mp hs.mem
  rank_le r hr := hs.rank_le r ((h r).mpr hr)

theorem isWorst_raise (s candidate : Severity) : IsWorst [s, candidate] (s.raise candidate) := by
  unfold raise
  split
  · next hlt =>
    refine ⟨by simp, ?_⟩
    simp only [List.forall_mem_cons, List.not_mem_nil, false_implies, implies_true, and_true]
    exact ⟨Nat.le_of_lt hlt, Nat.le_refl _⟩
  · next hle =>
    refine ⟨by simp, ?_⟩
    simp only [List.forall_mem_cons, List.not_mem_nil, false_implies, implies_true, and_true]
    exact ⟨Nat.le_refl _, Nat.le_of_not_lt hle⟩

/-! ## Lifting -/

/-- Going through the floors one by one gives the worst of the severity and of those that cover the code. -/
theorem isWorst_liftedBy (floors : List Floor) (code : String) (s : Severity) :
    IsWorst (s :: covering floors code) (s.liftedBy floors code) := by
  induction floors generalizing s with
  | nil => exact ⟨List.mem_cons_self, by simp [liftedBy]⟩
  | cons f floors ih =>
      rw [liftedBy, List.foldl_cons]
      cases hf : f.covers code with
      | false =>
          rw [if_neg (by simp), covering_cons_of_not_covers hf]
          exact ih s
      | true =>
          rw [if_pos rfl, covering_cons_of_covers hf]
          -- the floor and the severity have been replaced by the worse one of the two
          have hraise := isWorst_raise s f.severity
          have hrest := ih (s.raise f.severity)
          have hle := hrest.rank_le _ List.mem_cons_self
          constructor
          · rcases List.mem_cons.mp hrest.mem with h | h
            · rw [liftedBy] at h
              rw [h]
              exact List.mem_append_left (covering floors code) hraise.mem
            · exact List.mem_cons_of_mem _ (List.mem_cons_of_mem _ h)
          · rw [List.forall_mem_cons, List.forall_mem_cons]
            refine ⟨Nat.le_trans (hraise.rank_le s (by simp)) hle,
              Nat.le_trans (hraise.rank_le f.severity (by simp)) hle, ?_⟩
            exact fun r hr => hrest.rank_le r (List.mem_cons_of_mem _ hr)

/-- **The lifted severity** is the worst of the severity and of the floors of the tool that cover the
code. -/
theorem isWorst_lifted (table : FloorTable) (tool code : String) (s : Severity) :
    IsWorst (s :: covering (table.floorsOf tool) code) (s.lifted table tool code) :=
  isWorst_liftedBy (table.floorsOf tool) code s

/-- It depends on nothing but which floors there are. -/
theorem lifted_congr (h : ∀ f, f ∈ table.floorsOf tool ↔ f ∈ table'.floorsOf tool) (code : String)
    (s : Severity) : s.lifted table tool code = s.lifted table' tool code := by
  refine ((isWorst_lifted table tool code s).congr fun r => ?_).unique (isWorst_lifted table' tool code s)
  simp only [List.mem_cons, mem_covering, h]

/-- A worse severity is not less bad when both are lifted. -/
theorem rank_lifted_le (h : s.rank ≤ s'.rank) :
    (s.lifted table tool code).rank ≤ (s'.lifted table tool code).rank := by
  have hs' := isWorst_lifted table tool code s'
  rcases List.mem_cons.mp (isWorst_lifted table tool code s).mem with hown | hfloor
  · rw [hown]
    exact Nat.le_trans h (hs'.rank_le s' List.mem_cons_self)
  · exact hs'.rank_le _ (List.mem_cons_of_mem _ hfloor)

/-- What has been lifted is not lifted again. -/
theorem lifted_lifted : (s.lifted table tool code).lifted table tool code = s.lifted table tool code := by
  have hs := isWorst_lifted table tool code s
  have hagain := isWorst_lifted table tool code (s.lifted table tool code)
  refine hagain.unique ⟨List.mem_cons_self, ?_⟩
  rw [List.forall_mem_cons]
  exact ⟨Nat.le_refl _, fun r hr => hs.rank_le r (List.mem_cons_of_mem _ hr)⟩

theorem rank_floor_le {f : Floor} (hf : f ∈ table.floorsOf tool) (hcovers : f.covers code = true) :
    f.severity.rank ≤ (s.lifted table tool code).rank :=
  (isWorst_lifted table tool code s).rank_le _
    (List.mem_cons_of_mem _ (mem_covering.mpr ⟨f, hf, hcovers, rfl⟩))

end Severity

/-! ## Findings of gosec -/

namespace Readers.Gosec

variable {root : Files.Path} {item : Datum} {raw : RawIssue} {code : String}

/-- The issue is in a file, and its lines and its column can be read. -/
def IsReadable (item : Datum) : Prop :=
  (text (item.get "file")).isSome ∧ (∃ lines, lineSpan (item.get "line") = .ok lines) ∧
    ∃ column, whole (item.get "column") = .ok column

/-- Nothing else decides on whether an issue is read, neither its severity nor the tool's confidence. -/
theorem record_isOk : (∃ raw, record root item = .ok [raw]) ↔ IsReadable item := by
  unfold record IsReadable
  split
  · next hfile =>
    rw [hfile]
    simp [throw, throwThe, MonadExceptOf.throw]
  · next file hfile =>
    rw [hfile]
    constructor
    · rintro ⟨raw, h⟩
      obtain ⟨lines, hlines, h⟩ := bind_eq_ok.mp h
      obtain ⟨column, hcolumn, -⟩ := bind_eq_ok.mp h
      exact ⟨rfl, ⟨lines, hlines⟩, column, hcolumn⟩
    · rintro ⟨-, ⟨lines, hlines⟩, column, hcolumn⟩
      rw [hlines, hcolumn]
      exact ⟨_, rfl⟩

/-- The codes of credentials in the source and of queries that are put together from texts. -/
def graveCodes : List String := ["G101", "G201", "G202"]

/-- A grave code is a code of gosec, so it is kept as the rule of its finding. -/
theorem keeps_of_mem_graveCodes : ∀ code ∈ graveCodes, code ≠ "" ∧ text (.text code) = some code ∧
    CodedTool.gosec.keeps code = true := by
  decide +kernel

theorem ruleName_of_record (hcode : code ∈ graveCodes) (hitem : item.get "rule_id" = .text code)
    (h : record root item = .ok [raw]) : raw.ruleName = code := by
  obtain ⟨hne, htext, hkeeps⟩ := keeps_of_mem_graveCodes code hcode
  obtain ⟨hrule, -⟩ := CodedTool.of_gosec_record List.mem_cons_self h
  have hkept : CodedTool.gosec.ruleOf item = code := by
    rw [CodedTool.ruleOf, CodedTool.printed?, hitem, htext, Option.filter_some, if_pos hkeeps]
    rfl
  rw [RawIssue.ruleName, hrule, hkept, orElse, if_neg]
  simpa using hne

/-- Its issue is of high severity at least, whatever the severity of the finding is. -/
theorem rank_high_le {p : Profile} {t : Files.Tree} {i : Issue} (hcode : code ∈ graveCodes)
    (hrule : raw.ruleName = code) (htool : p.tool = "gosec") (hfloors : p.floors = FloorTable.standard)
    (hissue : p.issue? t raw = .ok (some i)) : Severity.high.rank ≤ i.severity.rank := by
  obtain ⟨path, id, -, -, -, rfl⟩ := Profile.issue?_eq_some hissue
  show _ ≤ (raw.severity.lifted p.floors p.tool raw.ruleName).rank
  rw [htool, hfloors, hrule]
  -- the standard floors hold one for exactly these codes
  have hfloor : (CodePattern.exactly graveCodes).floor .high ∈ FloorTable.standard.floorsOf "gosec" := by
    simp [graveCodes, FloorTable.floorsOf, FloorTable.standard]
  have hcovers : ∀ code ∈ graveCodes, ((CodePattern.exactly graveCodes).floor .high).covers code = true := by
    decide
  exact Severity.rank_floor_le hfloor (hcovers code hcode)

end Readers.Gosec

open Readers

/-- **Floors** give the worst of a severity and of the floors of the tool that cover the code: no severity
is lowered, a worse one stays worse, lifting again changes nothing, and neither do order and repetitions of
the floors. A grave finding of gosec becomes an issue of high severity at least, and it is read whatever the
severity and the confidence say that its record carries. -/
theorem Severity.lifted_spec :
    (∀ (table : FloorTable) (tool code : String) (s : Severity),
      IsWorst (s :: covering (table.floorsOf tool) code) (s.lifted table tool code) ∧
      s.rank ≤ (s.lifted table tool code).rank ∧
      (∀ s' : Severity, s.rank ≤ s'.rank →
        (s.lifted table tool code).rank ≤ (s'.lifted table tool code).rank) ∧
      (s.lifted table tool code).lifted table tool code = s.lifted table tool code ∧
      ∀ table' : FloorTable, (∀ f, f ∈ table.floorsOf tool ↔ f ∈ table'.floorsOf tool) →
        s.lifted table tool code = s.lifted table' tool code) ∧
    ∀ (root : Files.Path) (document item : Datum) (h : Harvest), gosec root document = .ok h →
      item ∈ (document.get "Issues").tables →
      ∀ code ∈ Gosec.graveCodes, item.get "rule_id" = .text code →
        ((∃ raw, Gosec.record root item = .ok [raw]) ↔ Gosec.IsReadable item) ∧
        ∀ raw, Gosec.record root item = .ok [raw] → raw ∈ h.issues ∧
          ∀ (p : Profile) (t : Files.Tree) (i : Issue), p.tool = "gosec" →
            p.floors = FloorTable.standard → p.issue? t raw = .ok (some i) →
            high.rank ≤ i.severity.rank := by
  constructor
  · intro table tool code s
    exact ⟨isWorst_lifted table tool code s, s.rank_le_lifted table tool code, fun s' => rank_lifted_le,
      lifted_lifted, fun table' h => lifted_congr h code s⟩
  · intro root document item h hread hitem code hcode hid
    refine ⟨Gosec.record_isOk, fun raw hrecord => ⟨?_, ?_⟩⟩
    · rw [(harvest_eq_ok hread).1]
      exact List.mem_flatMap.mpr ⟨item, hitem, by rw [hrecord]; exact List.mem_cons_self⟩
    · intro p t i htool hfloors hissue
      exact Gosec.rank_high_le hcode (Gosec.ruleName_of_record hcode hid hrecord) htool hfloors hissue

/-- Credentials in the source that gosec is not sure of: the discount brings them down to medium, and the
floor up again. -/
theorem Severity.lifted_spec_discounted :
    let root := Files.Path.ofString "/project"
    let item : Datum := .table [("file", .text "main.go"), ("rule_id", .text "G101"),
      ("severity", .text "HIGH"), ("confidence", .text "LOW")]
    let p : Profile := { tool := "gosec", ecosystem := "go", defaultConfidence := .medium, root }
    let t := Files.Tree.besideOutside [("main.go", .file (.text "x") false)]
    ∃ h raw i, gosec root (.table [("Issues", .list [item])]) = .ok h ∧ Gosec.record root item = .ok [raw] ∧
      raw.severity = .medium ∧ p.issue? t raw = .ok (some i) ∧ high.rank ≤ i.severity.rank := by
  intro root item p t
  have hshown : (Gosec.record root item).toOption.map
      (fun raws => raws.map fun raw => (raw.file, raw.severity, raw.span.startLine)) =
      some [(some "/project/main.go", .medium, 1)] := by decide +kernel
  obtain ⟨raw, hrecord⟩ : ∃ raw, Gosec.record root item = .ok [raw] :=
    Gosec.record_isOk.mpr ⟨by decide +kernel, ⟨_, rfl⟩, _, rfl⟩
  obtain ⟨h, hread⟩ : ∃ h, gosec root (.table [("Issues", .list [item])]) = .ok h := by
    refine harvest_isOk.mpr fun r hr => ?_
    obtain rfl : r = item := List.mem_singleton.mp hr
    rw [hrecord]
    exact nofun
  rw [hrecord] at hshown
  obtain ⟨hfile, hseverity, hline⟩ :
      raw.file = some "/project/main.go" ∧ raw.severity = .medium ∧ raw.span.startLine = 1 := by
    simpa [Except.toOption] using hshown
  have hpath : p.pathOf? t raw = some "main.go" := by
    rw [Profile.pathOf?, hfile]
    decide +kernel
  have hsound : t.IsSound := ⟨by decide, by decide, by decide, by decide⟩
  have hfits : (Datum.int raw.span.startLine).Fits := by
    rw [hline]
    decide +kernel
  have hissue := Profile.issue?_of_plain hsound ⟨"/project", rfl⟩ hpath hfits (by decide)
  obtain ⟨-, hraised⟩ := (lifted_spec.2 root _ item h hread List.mem_cons_self "G101" (by decide) rfl).2 raw hrecord
  exact ⟨h, raw, _, hread, hrecord, hseverity, hissue, hraised p t _ rfl rfl hissue⟩

end Assay

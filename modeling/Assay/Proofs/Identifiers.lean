import Assay.Proofs.Analyzer.Rules
import Assay.Proofs.Digest
import Assay.Proofs.Files.Check
import Assay.Proofs.Normalize
import Assay.Proofs.Readers.Clang

/-!
# What an identifier tells

The identifier of an issue is the beginning of the hash of one text, made of path, line, rule and tool. Among
the issues of one tool two have the same text and equally many bars in their rules exactly if they tell of the
same finding (`Issue.identifierText_iff`). Seven tools name no rules with bars, so for them the text alone tells
the finding: that is the main result, `Analyzer.identifierText_spec`. The rules of clang may hold bars, and then
different findings may have one text (`Analyzer.clang_identifiers_collide`).
-/

namespace Assay

open Files Readers

/-! ## Texts of issues -/

namespace Issue

/-- The text that is hashed for the identifier. -/
def identifierText (i : Issue) : String :=
  keyText i.canonicalPath i.startLine i.subcategory i.toolName

/-- What the issue tells of: a rule at a line of a file. -/
def finding (i : Issue) : String × Int × String := (i.canonicalPath, i.startLine, i.subcategory)

theorem identifierText_iff {i j : Issue} (htool : i.toolName = j.toolName) :
    i.identifierText = j.identifierText ∧ bars i.subcategory = bars j.subcategory ↔ i.finding = j.finding := by
  rw [finding, finding, Prod.mk.injEq, Prod.mk.injEq]
  constructor
  · rintro ⟨htext, hbars⟩
    obtain ⟨hpath, hline, hrule, -⟩ := keyText_inj hbars (by rw [htool]) htext
    exact ⟨hpath, hline, hrule⟩
  · rintro ⟨hpath, hline, hrule⟩
    rw [identifierText, identifierText, hpath, hline, hrule, htool]
    exact ⟨rfl, rfl⟩

end Issue

namespace Analyzer

variable {a : Analyzer} {issues : List Issue} {i : Issue}

/-- The issues that findings of the tool are normalized to. -/
inductive Normalizes (a : Analyzer) : List Issue → Prop where
  | intro {p : Profile} {t : Tree} {options : Option LanguageOptions} {raws : List RawIssue} {n : Normalized}
      (tool : p.tool = a.name) (reported : ∀ raw ∈ raws, a.Reports raw)
      (normalized : p.normalize t options raws = .ok n) : Normalizes a n.issues

namespace Normalizes

theorem exists_raw (h : a.Normalizes issues) (hi : i ∈ issues) :
    ∃ raw, a.Reports raw ∧ i.toolName = a.name ∧ i.subcategory = raw.ruleName ∧
      identifier i.canonicalPath i.startLine i.subcategory i.toolName = .ok i.id := by
  obtain ⟨htool, hreported, hnormalized⟩ := h
  obtain ⟨raw, hraw, hissue⟩ := Profile.exists_of_mem_issues hnormalized hi
  obtain ⟨path, id, -, -, hid, rfl⟩ := Profile.issue?_eq_some hissue
  exact ⟨raw, hreported raw hraw, htool, rfl, hid⟩

theorem toolName_eq (h : a.Normalizes issues) (hi : i ∈ issues) : i.toolName = a.name := by
  obtain ⟨-, -, htool, -⟩ := h.exists_raw hi
  exact htool

theorem id_eq (h : a.Normalizes issues) (hi : i ∈ issues) : i.id = Text.take 16 (Sha256.hex i.identifierText) := by
  obtain ⟨-, -, -, -, hid⟩ := h.exists_raw hi
  rw [Issue.identifierText]
  exact (identifier_eq_ok.mp hid).2

/-- A plain rule holds no bar. -/
theorem not_mem_subcategory (h : a.Normalizes issues) (hi : i ∈ issues) (ha : a ∈ standard) (hname : a.name ≠ clang.name) :
    '|' ∉ i.subcategory.toList := by
  have hmark : '|' ∈ Sandbox.refusedMarks := by decide
  obtain ⟨raw, hraw, -, hrule, -⟩ := h.exists_raw hi
  have hplain := hasPlainRule_of_reports ha hname hraw
  rw [hrule]
  unfold RawIssue.ruleName orElse
  split
  · next rule hsome =>
    split
    · decide
    · exact fun hbar => hplain rule hsome _ hbar hmark
  · decide

end Normalizes

/-- **An identifier** is the beginning of the hash of a text. With the number of bars in the rule, the text
tells path, line and rule of the finding; and if the tool is not the analyzer of clang, there are none in it. -/
theorem identifierText_spec (ha : a ∈ standard) {issues' : List Issue} (h : a.Normalizes issues) (h' : a.Normalizes issues') :
    ∀ i ∈ issues, ∀ j ∈ issues',
      i.id = Text.take 16 (Sha256.hex i.identifierText) ∧
      (i.identifierText = j.identifierText ∧ bars i.subcategory = bars j.subcategory ↔ i.finding = j.finding) ∧
      (a.name ≠ clang.name → '|' ∉ i.subcategory.toList ∧
        (i.identifierText = j.identifierText ↔ i.finding = j.finding)) := by
  intro i hi j hj
  have htool : i.toolName = j.toolName := (h.toolName_eq hi).trans (h'.toolName_eq hj).symm
  refine ⟨h.id_eq hi, Issue.identifierText_iff htool, fun hname => ?_⟩
  have hbar := h.not_mem_subcategory hi ha hname
  have hbars : bars i.subcategory = bars j.subcategory := by
    rw [bars_eq_zero.mpr hbar, bars_eq_zero.mpr (h'.not_mem_subcategory hj ha hname)]
  rw [← Issue.identifierText_iff htool, and_iff_left hbars]
  exact ⟨hbar, Iff.rfl⟩

/-! ## Runs in an empty project -/

/-- The root of a project. -/
def projectPath : Path := Path.ofString "/project"

/-- What an output of a tool becomes in an empty project. -/
def emitted (a : Analyzer) (output : String) : Option (List Issue) := do
  let harvest ← (a.reader projectPath output).toOption
  let p : Profile := { tool := a.name, ecosystem := "any", defaultConfidence := .medium, root := projectPath }
  let n ← (p.normalize (Tree.besideOutside []) none harvest.issues).toOption
  return n.issues

theorem normalizes_of_emitted {output : String} (h : emitted a output = some issues) : a.Normalizes issues := by
  simp only [emitted, Option.bind_eq_bind, Option.bind_eq_some_iff] at h
  obtain ⟨harvest, hread, n, hnormalized, h⟩ := h
  obtain rfl := Option.some.inj h
  exact .intro rfl (fun raw hraw => .intro (toOption_eq_some.mp hread) hraw) (toOption_eq_some.mp hnormalized)

/-- An output that is shown to become two issues makes two issues of the tool. -/
theorem exists_pair_of_emitted {output : String} {f g : String × Int × String}
    (h : (emitted a output).map (fun issues => issues.map Issue.finding) = some [f, g]) :
    ∃ i j, a.Normalizes [i, j] ∧ i.finding = f ∧ j.finding = g := by
  obtain ⟨issues, hissues, hfindings⟩ := Option.map_eq_some_iff.mp h
  obtain ⟨i, rest, rfl, hi, hrest⟩ := List.map_eq_cons_iff.mp hfindings
  obtain ⟨j, rfl, hj⟩ := List.map_eq_singleton_iff.mp hrest
  exact ⟨i, j, normalizes_of_emitted hissues, hi, hj⟩

/-- What gosec says of credentials in two files. The path of the second one begins like the text that is hashed
for the first. -/
def barredOutput : String :=
  "\x7b\"Issues\": [\x7b\"file\": \"a.go\", \"line\": \"1\", \"rule_id\": \"G101\"\x7d, " ++
    "\x7b\"file\": \"a.go|1|G101.go\", \"line\": \"1\", \"rule_id\": \"G101\"\x7d]\x7d"

/-- Bars in paths do no harm. -/
theorem identifierText_spec_barred : ∃ i j, gosec.Normalizes [i, j] ∧
    i.finding = ("a.go", 1, "G101") ∧ j.finding = ("a.go|1|G101.go", 1, "G101") ∧
    i.identifierText ≠ j.identifierText := by
  have hshown : (emitted gosec barredOutput).map (fun issues => issues.map Issue.finding) =
      some [("a.go", 1, "G101"), ("a.go|1|G101.go", 1, "G101")] := by decide +kernel
  obtain ⟨i, j, hnormalizes, hi, hj⟩ := exists_pair_of_emitted hshown
  obtain ⟨-, -, htext⟩ := identifierText_spec (a := gosec) (by simp [standard]) hnormalizes hnormalizes
    i (by simp) j (by simp)
  refine ⟨i, j, hnormalizes, hi, hj, fun h => ?_⟩
  have hsame := (htext (by decide)).2.mp h
  rw [hi, hj] at hsame
  exact absurd hsame (by decide)

/-! ## Rules with bars -/

/-- An element in markup. -/
def tagged (tag inside : String) : String := "<" ++ tag ++ ">" ++ inside ++ "</" ++ tag ++ ">"

/-- A diagnostic of clang. -/
def diagnosticText (checker line file : String) : String :=
  tagged "dict" (tagged "key" "check_name" ++ tagged "string" checker ++ tagged "key" "location" ++
    tagged "dict" (tagged "key" "line" ++ tagged "integer" line ++ tagged "key" "file" ++ tagged "integer" file))

/-- What clang says of two files. -/
def collidingOutput : String :=
  tagged "plist" (tagged "dict" (tagged "key" "files" ++
    tagged "array" (tagged "string" "a.c" ++ tagged "string" "a.c|1|b.c") ++ tagged "key" "diagnostics" ++
    tagged "array" (diagnosticText "b.c|2|core.DivideZero" "1" "0" ++ diagnosticText "core.DivideZero" "2" "1")))

/-- The elements of a diagnostic. -/
def diagnosticOf (checker line file : String) : Markup.Element :=
  Clang.dict [("check_name", Clang.leaf "string" checker),
    ("location", Clang.dict [("line", Clang.leaf "integer" line), ("file", Clang.leaf "integer" file)])]

/-- The elements of the output. -/
def collidingReport : Markup.Element :=
  .node "plist" none [Clang.dict [
    ("files", .node "array" none [Clang.leaf "string" "a.c", Clang.leaf "string" "a.c|1|b.c"]),
    ("diagnostics", .node "array" none
      [diagnosticOf "b.c|2|core.DivideZero" "1" "0", diagnosticOf "core.DivideZero" "2" "1"])]]

-- the text is taken apart before it is read, since the characters of a long one are slow to tell
set_option maxRecDepth 8192 in
theorem markup_collidingOutput : markup collidingOutput = .ok collidingReport := by
  have hblank : Text.isBlankText collidingOutput = false := by
    simp only [Text.isBlankText, collidingOutput, tagged, diagnosticText, String.toList_append, String.reduceToList]
    rfl
  have hread : Markup.read? collidingOutput = some collidingReport := by
    simp only [Markup.read?, collidingOutput, tagged, diagnosticText, String.toList_append, String.reduceToList]
    rfl
  rw [markup, hblank, hread]
  rfl

theorem reader_collidingOutput :
    clang.reader projectPath collidingOutput = Readers.clang projectPath collidingReport := by
  show markup collidingOutput >>= Readers.clang projectPath = _
  rw [markup_collidingOutput]
  rfl

/-- **A rule with bars** makes up for a shorter path: two findings of clang in different files have one
identifier. -/
theorem clang_identifiers_collide : ∃ i j, clang.Normalizes [i, j] ∧
    i.finding = ("a.c", 1, "b.c|2|core.DivideZero") ∧ j.finding = ("a.c|1|b.c", 2, "core.DivideZero") ∧
    i.identifierText = j.identifierText ∧ i.id = j.id := by
  have hshown : (emitted clang collidingOutput).map (fun issues => issues.map Issue.finding) =
      some [("a.c", 1, "b.c|2|core.DivideZero"), ("a.c|1|b.c", 2, "core.DivideZero")] := by
    rw [emitted, reader_collidingOutput]
    decide +kernel
  obtain ⟨i, j, hnormalizes, hi, hj⟩ := exists_pair_of_emitted hshown
  have htext : i.identifierText = j.identifierText := by
    obtain ⟨hpath, hline, hrule⟩ : i.canonicalPath = "a.c" ∧ i.startLine = 1 ∧
      i.subcategory = "b.c|2|core.DivideZero" := by simpa [Issue.finding] using hi
    obtain ⟨hpath', hline', hrule'⟩ : j.canonicalPath = "a.c|1|b.c" ∧ j.startLine = 2 ∧
      j.subcategory = "core.DivideZero" := by simpa [Issue.finding] using hj
    rw [Issue.identifierText, Issue.identifierText, hpath, hline, hrule, hpath', hline', hrule',
      hnormalizes.toolName_eq (i := i) (by simp), hnormalizes.toolName_eq (i := j) (by simp)]
    decide
  refine ⟨i, j, hnormalizes, hi, hj, htext, ?_⟩
  rw [hnormalizes.id_eq (i := i) (by simp), hnormalizes.id_eq (i := j) (by simp), htext]

end Analyzer

end Assay

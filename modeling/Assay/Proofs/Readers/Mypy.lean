import Assay.Proofs.Decimal.Text
import Assay.Proofs.Outcome
import Assay.Proofs.Readers.Field
import Assay.Proofs.Readers.Harvest
import Assay.Proofs.Text.Lines
import Assay.Readers.Mypy

/-!
# Diagnostics of mypy, written and read

A diagnostic is written on one line, `path:line:column: severity: message  [code]`, where the column may be
missing. What is read from the lines of an output are the diagnostics it was written for, without the notes
(`mypy_written`): the first colon ends the path, so nothing in a message can be taken for a number or a
severity, and the last bracket opens the code. Only a number of too many digits spoils an output
(`mypy_overlong`).
-/

namespace Assay.Readers

namespace Mypy

open Decimal (natText)

/-- A text on one line with no blanks around it. -/
structure IsPhrase (s : String) : Prop where
  nonempty : s ≠ ""
  bare : Text.strip s = s
  unbroken : s.toList.any Text.isLineBreak = false

/-- What one line reports. -/
structure Diagnostic where
  path : String
  line : Nat
  column : Option Nat
  label : String
  message : String
  code : String
  path_phrase : IsPhrase path
  path_plain : ':' ∉ path.toList
  label_word : label ∈ severityWords
  message_phrase : IsPhrase message
  code_nonempty : code ≠ ""
  code_plain : code.toList.all isCodeCharacter = true

namespace Diagnostic

/-- The line that a diagnostic is written on. -/
def text (d : Diagnostic) : String :=
  d.path ++ ":" ++ natText d.line ++ ":" ++ (d.column.elim "" fun n => natText n ++ ":") ++ " " ++ d.label ++
    ": " ++ d.message ++ "  [" ++ d.code ++ "]"

/-- Notes are no findings. -/
def isReported (d : Diagnostic) : Bool := d.label != "note"

/-- The numbers are not too long to be read. -/
def Fits (d : Diagnostic) : Prop :=
  ∀ n ∈ d.line :: d.column.toList, (Nat.toDigits 10 n).length ≤ Decimal.maxWholeDigits

instance (d : Diagnostic) : Decidable d.Fits :=
  List.decidableBAll (fun n => (Nat.toDigits 10 n).length ≤ Decimal.maxWholeDigits) (d.line :: d.column.toList)

/-- The finding that a diagnostic is. -/
def issue (root : Files.Path) (d : Diagnostic) : RawIssue where
  file := fileAt root d.path
  line := some d.line
  column := d.column.map Int.ofNat
  severity := if d.label = "error" then .medium else .low
  category := some (Vocabulary.name ((codeCategories.lookup d.code).getD .type))
  rule := some d.code
  title := d.message
  description := d.message
  tags := ["python", "mypy", "typing"]

end Diagnostic

/-- The output that reports some diagnostics. -/
def written (ds : List Diagnostic) : String := Text.join "\n" (ds.map Diagnostic.text)

/-! ## The parts of a line -/

variable {s : String} {n : Nat} {rest : List Char} {d : Diagnostic} {ds : List Diagnostic} {root : Files.Path}

theorem IsPhrase.trim (h : IsPhrase s) : Text.trim s.toList = s.toList := by
  have hbare := congrArg String.toList h.bare
  rwa [Text.strip, String.toList_ofList] at hbare

theorem IsPhrase.not_break (h : IsPhrase s) : ∀ c ∈ s.toList, Text.isLineBreak c = false := by
  simpa using h.unbroken

theorem IsPhrase.ends (h : IsPhrase s) : (∃ c, s.toList.head? = some c ∧ Text.isBlank c = false) ∧
    ∃ c, s.toList.getLast? = some c ∧ Text.isBlank c = false :=
  Text.ends_of_trim_eq (by simpa using h.nonempty) h.trim

/-- Blanks before a phrase are trimmed, and nothing of the phrase. -/
theorem IsPhrase.trimStart_blank (h : IsPhrase s) :
    Text.trimStart (' ' :: (s.toList ++ rest)) = s.toList ++ rest := by
  obtain ⟨⟨c, hc, hvisible⟩, -⟩ := h.ends
  obtain ⟨cs, hs⟩ := List.head?_eq_some_iff.mp hc
  rw [hs, List.cons_append]
  show Text.trimStart ([' '] ++ _) = _
  rw [Text.trimStart_append (List.forall_mem_singleton.mpr (by decide)), Text.trimStart_cons hvisible]

/-- A run that ends where the list goes on with something else. -/
theorem span_append {p : Char → Bool} {run : List Char} {c : Char} (hrun : ∀ a ∈ run, p a = true)
    (hc : p c = false) (rest : List Char) :
    (run ++ c :: rest).takeWhile p = run ∧ (run ++ c :: rest).dropWhile p = c :: rest := by
  rw [List.takeWhile_append_of_pos hrun, List.dropWhile_append_of_pos hrun]
  simp [hc]

theorem numberAt?_digits : numberAt? (Nat.toDigits 10 n ++ ':' :: rest) = some (Nat.toDigits 10 n, rest) := by
  have hdigits : ∀ c ∈ Nat.toDigits 10 n, Text.isDecimal c = true :=
    fun c hc => Text.isDecimal_of_isAsciiDigit (Decimal.isAsciiDigit_of_mem_toDigits hc)
  have hcolon : Text.isDecimal ':' = false := by decide +kernel
  obtain ⟨htake, hdrop⟩ := span_append hdigits hcolon rest
  rw [numberAt?, htake, hdrop]
  split
  · next hnil => exact absurd hnil Nat.toDigits_ne_nil
  · next hcons => simp_all
  · next hother => exact absurd rfl (hother _)

theorem numberAt?_blank : numberAt? (' ' :: rest) = none := by
  have hblank : Text.isDecimal ' ' = false := by decide +kernel
  rw [numberAt?, List.takeWhile_cons_of_neg (by simp [hblank])]

/-- The numbers end at the blank before the severity. -/
theorem numbersAt_columns (column : Option Nat) :
    numbersAt 3 ((column.elim [] fun n => Nat.toDigits 10 n ++ [':']) ++ ' ' :: rest) =
      ((column.map (Nat.toDigits 10)).toList, ' ' :: rest) := by
  cases column with
  | none => simp [numbersAt, numberAt?_blank]
  | some n => simp [numbersAt, numberAt?_digits, numberAt?_blank]

theorem severityAt?_label {label : String} (h : label ∈ severityWords) :
    severityAt? (' ' :: (label.toList ++ ':' :: rest)) = some (label, rest) := by
  simp only [severityWords, List.mem_cons, List.not_mem_nil, or_false] at h
  rcases h with rfl | rfl | rfl <;> rfl

/-- The code is what stands in the last brackets. -/
theorem splitCode?_append {code : String} (hs : IsPhrase s) (hne : code ≠ "")
    (hcode : code.toList.all isCodeCharacter = true) :
    splitCode? (s.toList ++ ' ' :: ' ' :: '[' :: (code.toList ++ [']'])) = some (s.toList, code) := by
  obtain ⟨-, last, hlast, hvisible⟩ := hs.ends
  obtain ⟨r, hr⟩ : ∃ r, s.toList.reverse = last :: r := by
    rw [← List.head?_reverse] at hlast
    exact List.head?_eq_some_iff.mp hlast
  obtain ⟨c, cs, hcs⟩ : ∃ c cs, code.toList.reverse = c :: cs :=
    List.exists_cons_of_ne_nil (by simpa using hne)
  -- the code is looked for from the end of the line
  have hreverse : (s.toList ++ ' ' :: ' ' :: '[' :: (code.toList ++ [']'])).reverse =
      ']' :: (code.toList.reverse ++ '[' :: ' ' :: ' ' :: (last :: r)) := by
    simp [← hr]
  have hcode : ∀ c ∈ code.toList.reverse, isCodeCharacter c = true := by simpa using hcode
  have hbracket : isCodeCharacter '[' = false := by decide
  obtain ⟨htake, -⟩ := span_append hcode hbracket (' ' :: ' ' :: (last :: r))
  have hblanks : (' ' :: ' ' :: (last :: r)).dropWhile Text.isBlank = last :: r := by
    show Text.trimStart ([' ', ' '] ++ _) = _
    rw [Text.trimStart_append (List.all_eq_true.mp (by decide)), Text.trimStart_cons hvisible]
  unfold splitCode?
  simp only [hreverse]
  rw [htake, List.drop_left, hcs]
  simp only [hblanks]
  rw [← hcs, ← hr]
  have hparted : s.toList.length + 1 + 1 ≠ s.toList.length := by omega
  simpa [hs.nonempty] using hparted

/-! ## Lines -/

namespace Diagnostic

/-- The parts of the line that a diagnostic is written on. -/
def parsed (d : Diagnostic) : Line where
  path := d.path.toList
  line := Nat.toDigits 10 d.line
  column := d.column.map (Nat.toDigits 10)
  finish := none
  severity := d.label
  message := d.message.toList
  code := some d.code

/-- The part of the line behind the severity. -/
def body (d : Diagnostic) : List Char :=
  d.message.toList ++ ' ' :: ' ' :: '[' :: (d.code.toList ++ [']'])

theorem toList_text (d : Diagnostic) : d.text.toList = d.path.toList ++ ':' :: (Nat.toDigits 10 d.line ++
    ':' :: ((d.column.elim [] fun n => Nat.toDigits 10 n ++ [':']) ++ ' ' ::
      (d.label.toList ++ ':' :: (' ' :: d.body)))) := by
  cases hcolumn : d.column <;> simp [text, body, hcolumn, Decimal.toList_natText]

theorem trim_text (d : Diagnostic) : Text.trim d.text.toList = d.text.toList := by
  obtain ⟨⟨c, hc, hvisible⟩, -⟩ := d.path_phrase.ends
  have hlast : d.text.toList.getLast? = some ']' := by
    rw [text, String.toList_append]
    exact List.getLast?_concat
  have hfirst : d.text.toList.head? = some c := by
    rw [toList_text, List.head?_append, hc]
    rfl
  have htrim := @Text.trim_between [] d.text.toList [] c ']' nofun nofun hfirst hlast ⟨hvisible, by decide⟩
  rwa [List.nil_append, List.append_nil] at htrim

theorem line?_text (d : Diagnostic) : line? d.text.toList = some d.parsed := by
  have hlabel := @severityAt?_label (' ' :: d.body) d.label d.label_word
  have hbody : Text.trimStart (' ' :: d.body) = d.body := d.message_phrase.trimStart_blank
  have hcode : splitCode? d.body = some (d.message.toList, d.code) :=
    splitCode?_append d.message_phrase d.code_nonempty d.code_plain
  have hpath : d.path.toList.isEmpty = false := by simpa using d.path_phrase.nonempty
  have hshown : d.body ≠ [] := by simp [body]
  rw [toList_text, line?, Text.cut_append d.path_plain]
  simp only [Option.bind_eq_bind, Option.bind_some, numberAt?_digits, numbersAt_columns]
  -- with or without a column, what is left begins with the blank before the severity
  cases hcolumn : d.column <;> simp [placesOf?, hlabel, hbody, hcode, hpath, hshown, parsed, hcolumn]

theorem severity_of_isReported (h : d.isReported = true) :
    (Severity.ofLabel severities (.text d.label) .medium).1 = if d.label = "error" then .medium else .low := by
  have hword := d.label_word
  simp only [severityWords, List.mem_cons, List.not_mem_nil, or_false] at hword
  rcases hword with herror | hwarning | hnote
  · rw [herror]
    decide
  · rw [hwarning]
    decide
  · simp [isReported, hnote] at h

/-- The numbers of a line are read one after the other, and the first one that is too long is a fault. -/
theorem finding_parsed (root : Files.Path) (d : Diagnostic) : finding root d.parsed = do
    let line ← readDigits (Nat.toDigits 10 d.line)
    let column ← d.column.mapM fun n => readDigits (Nat.toDigits 10 n)
    let severity := (Severity.ofLabel severities (.text d.label) .medium).1
    return { d.issue root with line := some line, column, severity } := by
  have hpath : String.ofList (Text.trim d.path.toList) = d.path := d.path_phrase.bare
  have hmessage : String.ofList (Text.trim d.message.toList) = d.message := d.message_phrase.bare
  cases hcolumn : d.column <;> simp [finding, parsed, issue, hpath, hmessage, hcolumn, wholeOfText?] <;> rfl

theorem finding_of_fits (hreported : d.isReported = true) (h : d.Fits) :
    finding root d.parsed = .ok (d.issue root) := by
  obtain ⟨hline, hcolumns⟩ := List.forall_mem_cons.mp h
  rw [finding_parsed, severity_of_isReported hreported, readDigits_toDigits, if_pos hline]
  cases hcolumn : d.column with
  | none => simp [issue, hcolumn]
  | some n =>
      have hn := hcolumns n (by simp [hcolumn])
      simp [issue, hcolumn, readDigits_toDigits, hn]
      rfl

theorem finding_of_not_fits (root : Files.Path) (h : ¬ d.Fits) : ∃ count > Decimal.maxWholeDigits,
    finding root d.parsed = .error (.badValue (Decimal.tooManyDigits count)) := by
  rw [finding_parsed, readDigits_toDigits]
  by_cases hline : (Nat.toDigits 10 d.line).length ≤ Decimal.maxWholeDigits
  · -- the line can be read, so it is the column that cannot
    obtain ⟨n, hn, hlong⟩ : ∃ n, d.column = some n ∧ Decimal.maxWholeDigits < (Nat.toDigits 10 n).length := by
      simpa [Fits, hline] using h
    refine ⟨_, hlong, ?_⟩
    rw [if_pos hline, hn]
    simp [readDigits_toDigits, Nat.not_le_of_lt hlong]
    rfl
  · refine ⟨_, Nat.lt_of_not_le hline, ?_⟩
    rw [if_neg hline]
    rfl

theorem isLineBreak_of_isCodeCharacter {c : Char} (h : isCodeCharacter c = true) :
    Text.isLineBreak c = false := by
  simp only [isCodeCharacter, Bool.or_eq_true, Bool.and_eq_true, decide_eq_true_eq, beq_iff_eq] at h
  rcases h with (hletter | hdigit) | rfl
  · exact Text.isLineBreak_of_between hletter (by decide) (by decide)
  · exact Text.isLineBreak_of_between hdigit (by decide) (by decide)
  · decide

theorem not_break_text (d : Diagnostic) : ∀ c ∈ d.text.toList, Text.isLineBreak c = false := by
  have hdigits (n : Nat) : ∀ c ∈ Nat.toDigits 10 n, Text.isLineBreak c = false := by
    intro c hc
    have hdigit := Decimal.isAsciiDigit_of_mem_toDigits hc
    rw [Decimal.isAsciiDigit, Bool.and_eq_true, decide_eq_true_eq, decide_eq_true_eq] at hdigit
    exact Text.isLineBreak_of_between hdigit (by decide) (by decide)
  have hcolumn : ∀ c ∈ d.column.elim [] fun n => Nat.toDigits 10 n ++ [':'], Text.isLineBreak c = false := by
    cases d.column with
    | none => exact List.forall_mem_nil _
    | some n => exact List.forall_mem_append.mpr ⟨hdigits n, List.forall_mem_singleton.mpr (by decide)⟩
  have hlabel : ∀ c ∈ d.label.toList, Text.isLineBreak c = false := by
    have hwords : ∀ word ∈ severityWords, word.toList.any Text.isLineBreak = false := by decide
    simpa using hwords d.label d.label_word
  have hcode : ∀ c ∈ d.code.toList, Text.isLineBreak c = false := by
    intro c hc
    exact isLineBreak_of_isCodeCharacter (List.all_eq_true.mp d.code_plain c hc)
  rw [toList_text, body]
  simp only [List.forall_mem_append, List.forall_mem_cons]
  exact ⟨d.path_phrase.not_break, by decide, hdigits _, by decide, hcolumn, by decide, hlabel,
    by decide, by decide, d.message_phrase.not_break, by decide, by decide, by decide, hcode, by decide,
    List.forall_mem_nil _⟩

end Diagnostic

/-! ## Outputs -/

theorem lines_written (ds : List Diagnostic) : Text.lines (written ds) = ds.map Diagnostic.text := by
  rw [Text.lines, written, Text.toList_join, Text.linesFrom_feedSeparated]
  · simp [Function.comp_def]
  · simp only [List.map_map, List.forall_mem_map]
    intro d _
    rw [Function.comp_apply, Diagnostic.toList_text]
    simp
  · simp only [List.map_map, List.forall_mem_map]
    exact fun d _ => d.not_break_text

theorem reports_written (ds : List Diagnostic) :
    reports (Text.lines (written ds)) = (ds.filter Diagnostic.isReported).map Diagnostic.parsed := by
  have hline : (fun s : String => line? (Text.trim s.toList)) ∘ Diagnostic.text = fun d => some d.parsed := by
    funext d
    rw [Function.comp_apply, d.trim_text, d.line?_text]
  rw [reports, lines_written, List.filterMap_map, hline, List.filterMap_eq_map', List.filter_map]
  rfl

/-- Diagnostics whose numbers can be read come back, without the notes among them. -/
theorem mypy_of_fits (h : ∀ d ∈ ds, d.isReported = true → d.Fits) :
    mypy root (Text.lines (written ds)) =
      .ok { issues := (ds.filter Diagnostic.isReported).map (Diagnostic.issue root) } := by
  have hread : ((ds.filter Diagnostic.isReported).map Diagnostic.parsed).mapM (finding root) =
      .ok ((ds.filter Diagnostic.isReported).map (Diagnostic.issue root)) := by
    rw [List.mapM_map, mapM_eq_ok_map]
    intro d hd
    obtain ⟨hmem, hreported⟩ := List.mem_filter.mp hd
    exact d.finding_of_fits hreported (h d hmem hreported)
  rw [mypy, reports_written, hread]

theorem mypy_of_not_fits (root : Files.Path) (hd : d ∈ ds) (hreported : d.isReported = true) (h : ¬ d.Fits) :
    ∃ count > Decimal.maxWholeDigits,
      mypy root (Text.lines (written ds)) = .error (.badValue (Decimal.tooManyDigits count)) := by
  rw [mypy, reports_written]
  cases hread : ((ds.filter Diagnostic.isReported).map Diagnostic.parsed).mapM (finding root) with
  | ok issues =>
      obtain ⟨count, -, hfault⟩ := Diagnostic.finding_of_not_fits root h
      obtain ⟨issue, hissue⟩ := mapM_isOk.mp ⟨issues, hread⟩ d.parsed
        (List.mem_map_of_mem (List.mem_filter.mpr ⟨hd, hreported⟩))
      rw [hfault] at hissue
      simp at hissue
  | error fault =>
      -- the fault is that of a diagnostic whose numbers cannot be read either
      obtain ⟨l, hl, hfault⟩ := exists_of_mapM_eq_error hread
      obtain ⟨e, he, rfl⟩ := List.mem_map.mp hl
      by_cases hfits : e.Fits
      · rw [e.finding_of_fits (List.mem_filter.mp he).2 hfits] at hfault
        simp at hfault
      · obtain ⟨count, hcount, hlong⟩ := Diagnostic.finding_of_not_fits root hfits
        obtain rfl := Except.error.inj (hfault.symm.trans hlong)
        exact ⟨count, hcount, rfl⟩

end Mypy

open Mypy

/-- **What mypy reports is read as it was written**: one finding for every diagnostic that is no note, in their
order and with all parts of it, whatever the message says. A number that is too long to be read spoils the
output, and of a path something is left unless the root is relative. -/
theorem mypy_written (root : Files.Path) (ds : List Diagnostic) :
    ((∀ d ∈ ds, d.isReported = true → d.Fits) → mypy root (Text.lines (written ds)) =
      .ok { issues := (ds.filter Diagnostic.isReported).map (Diagnostic.issue root) }) ∧
    ((∃ d ∈ ds, d.isReported = true ∧ ¬ d.Fits) → ∃ count > Decimal.maxWholeDigits,
      mypy root (Text.lines (written ds)) = .error (.badValue (Decimal.tooManyDigits count))) ∧
    ∀ d ∈ ds, (d.issue root).file = some (Text.strip (resolve root d.path)) ∨
      root.isAbsolute = false ∧ Text.strip (resolve root d.path) = "" ∧ (d.issue root).file = none := by
  refine ⟨mypy_of_fits, ?_, ?_⟩
  · rintro ⟨d, hd, hreported, hlong⟩
    exact mypy_of_not_fits root hd hreported hlong
  · intro d _
    simp only [Diagnostic.issue]
    exact fileAt_cases root d.path

namespace Mypy

/-- An error whose message looks like parts of a line, at a column that counts from zero. -/
def misleading : Diagnostic where
  path := "a b.py"
  line := 3
  column := some 0
  label := "error"
  message := "got x:4:5: note: y  [misc] [7:8], see error: z"
  code := "arg-type"
  path_phrase := ⟨by decide, by decide, by decide⟩
  path_plain := by decide
  label_word := by decide
  message_phrase := ⟨by decide, by decide, by decide⟩
  code_nonempty := by decide
  code_plain := by decide

/-- What mypy says about a line as a whole. -/
def plainly (label : String) (h : label ∈ severityWords) (line : Nat) : Diagnostic where
  path := "a.py"
  line := line
  column := none
  label := label
  message := "m"
  code := "c"
  path_phrase := ⟨by decide, by decide, by decide⟩
  path_plain := by decide
  label_word := h
  message_phrase := ⟨by decide, by decide, by decide⟩
  code_nonempty := by decide
  code_plain := by decide

theorem not_fits_plainly {label : String} {h : label ∈ severityWords} :
    ¬ (plainly label h (10 ^ Decimal.maxWholeDigits)).Fits := by
  intro hfits
  have hlength := hfits (10 ^ Decimal.maxWholeDigits) List.mem_cons_self
  rw [Nat.length_toDigits_le_iff (by decide) (by decide)] at hlength
  exact Nat.lt_irrefl _ hlength

end Mypy

/-- The message is kept as it is, the note between the findings is not, and a number that is too long spoils
the output. -/
theorem mypy_written_misleading :
    let root := Files.Path.ofString "/work"
    let warning := plainly "warning" (by decide)
    (∀ d ∈ [misleading, plainly "note" (by decide) 4, warning 7], d.isReported = true → d.Fits) ∧
    ((mypy root (Text.lines (written [misleading, plainly "note" (by decide) 4, warning 7]))).map fun h =>
      h.issues.map fun i => (i.file, i.line, i.column, i.rule, i.title)) =
        .ok [(some "/work/a b.py", some 3, some 0, some "arg-type",
            "got x:4:5: note: y  [misc] [7:8], see error: z"),
          (some "/work/a.py", some 7, none, some "c", "m")] ∧
    ∃ count > Decimal.maxWholeDigits,
      mypy root (Text.lines (written [misleading, warning (10 ^ Decimal.maxWholeDigits)])) =
        .error (.badValue (Decimal.tooManyDigits count)) := by
  intro root warning
  have hfits : ∀ d ∈ [misleading, plainly "note" (by decide) 4, warning 7], d.isReported = true → d.Fits := by
    decide
  refine ⟨hfits, ?_, ?_⟩
  · rw [(mypy_written root _).1 hfits]
    exact congrArg Except.ok (by decide +kernel)
  · exact (mypy_written root _).2.1 ⟨_, List.mem_cons_of_mem _ List.mem_cons_self, rfl, not_fits_plainly⟩

/-- A file in a directory whose name is a blank, named from the directory that holds both. -/
def Mypy.nameless : Diagnostic :=
  { plainly "error" (by decide) 1 with
    path := "./ /."
    path_phrase := ⟨by decide, by decide, by decide⟩
    path_plain := by decide }

/-- Not every diagnostic is a finding: the number of a line may be too long to be read. And a finding may have no
file, where nothing but a blank is left of a relative path. -/
theorem mypy_overlong :
    let overlong := plainly "error" (by decide) (10 ^ Decimal.maxWholeDigits)
    (overlong.isReported = true ∧
        ∀ h, mypy (Files.Path.ofString "/work/proj") (Text.lines (written [overlong])) ≠ .ok h) ∧
      (mypy (Files.Path.ofString ".") (Text.lines (written [nameless]))).map (fun h => h.issues.map (·.file)) =
        .ok [none] := by
  intro overlong
  refine ⟨⟨rfl, ?_⟩, ?_⟩
  · intro h hread
    have hmem : overlong ∈ [overlong] := List.mem_cons_self
    obtain ⟨count, -, hfails⟩ := mypy_of_not_fits (Files.Path.ofString "/work/proj") hmem rfl not_fits_plainly
    rw [hfails] at hread
    simp at hread
  · rw [mypy_of_fits (by decide)]
    exact congrArg Except.ok (by decide +kernel)

end Assay.Readers

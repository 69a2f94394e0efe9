import Mathlib.Data.List.Forall2
import Assay.Proofs.Json.Reader
import Assay.Proofs.Outcome
import Assay.Proofs.Text.Lines
import Assay.Readers.Output

/-!
# Documents on lines

Documents that stand on a line each come back one by one, exactly if no line of theirs holds a line
boundary of Unicode beyond ASCII: the next-line control, the line separator or the paragraph separator
(`jsonLines_eq_ok_iff`). All three may stand raw in a string of JSON, but the reader ends a line at them.
-/

namespace Assay.Readers

open Json Text

/-! ## Reading the lines -/

theorem lineDocuments_length {css : List (List Char)} {found : List (Option Datum)}
    (h : lineDocuments css = .ok found) : found.length = css.length := by
  induction css generalizing found with
  | nil => rw [← Except.ok.inj h, List.length_nil, List.length_nil]
  | cons cs css ih =>
      rw [lineDocuments] at h
      split at h
      · obtain ⟨others, hothers, rfl⟩ := map_eq_ok.mp h
        rw [List.length_cons, List.length_cons, ih hothers]
      · split at h
        · simp at h
        · obtain ⟨others, hothers, rfl⟩ := map_eq_ok.mp h
          rw [List.length_cons, List.length_cons, ih hothers]

/-- Lines that are all documents are read one by one. -/
theorem lineDocuments_of_read {documents : List Datum} {css : List (List Char)}
    (h : List.Forall₂ (fun d cs => Json.read? cs = .ok d) documents css) :
    lineDocuments css = .ok (documents.map some) := by
  induction h with
  | nil => rfl
  | cons hd _ ih => rw [lineDocuments, hd, ih]; rfl

/-- The lines of an output that show something, trimmed. -/
def shownLines (output : String) : List (List Char) :=
  ((linesFrom [] false output.toList).map trim).filter fun cs => !cs.isEmpty

theorem length_shownLines (output : String) :
    (shownLines output).length = (linesFrom [] false output.toList).countP shows := by
  rw [shownLines, ← List.countP_eq_length_filter, List.countP_map]
  refine List.countP_congr fun cs _ => ?_
  simp [isEmpty_trim]

theorem filter_trimmed_lines (output : String) :
    (((lines output).map fun line => trim line.toList).filter fun cs => !cs.isEmpty) =
      shownLines output := by
  simp [shownLines, lines, Function.comp_def]

/-- What is read are the lines that show something, each on its own. -/
theorem jsonLines_eq_ok {output : String} {documents : List Datum} {broken : Nat}
    (h : jsonLines output = .ok (documents, broken)) :
    ∃ found, lineDocuments (shownLines output) = .ok found ∧ documents = found.filterMap id ∧
      broken = found.length - documents.length := by
  unfold jsonLines at h
  simp only [filter_trimmed_lines] at h
  obtain ⟨found, hfound, h⟩ := bind_eq_ok.mp h
  refine ⟨found, hfound, ?_⟩
  split at h
  · rw [throw_bind] at h
    exact nomatch h
  · obtain ⟨rfl, rfl⟩ := Prod.mk.inj (Except.ok.inj h)
    exact ⟨rfl, rfl⟩

theorem jsonLines_of_read {output : String} {documents : List Datum}
    (h : lineDocuments (shownLines output) = .ok (documents.map some)) :
    jsonLines output = .ok (documents, 0) := by
  unfold jsonLines
  simp only [filter_trimmed_lines, h]
  simp [bind, Except.bind, pure, Except.pure]

/-- Lines that are all read make up an output in which nothing is broken. -/
theorem length_shownLines_of_ok {output : String} {documents : List Datum}
    (h : jsonLines output = .ok (documents, 0)) : (shownLines output).length ≤ documents.length := by
  obtain ⟨found, hfound, rfl, hbroken⟩ := jsonLines_eq_ok h
  rw [← lineDocuments_length hfound]
  omega

/-! ## Documents on lines -/

/-- The line boundaries of Unicode beyond ASCII: the next-line control and the two separators. -/
def wideBreaks : List Char := ['\u0085', '\u2028', '\u2029']

theorem mem_wideBreaks {c : Char} :
    c ∈ wideBreaks ↔ isLineBreak c = true ∧ 127 ≤ c.toNat := by
  have heq (d : Char) : c = d ↔ c.toNat = d.toNat :=
    ⟨fun h => h ▸ rfl, fun h => Char.ext (UInt32.toNat_inj.mp h)⟩
  have hcontrol : '\u0085'.toNat = 0x85 := rfl
  have hline : '\u2028'.toNat = 0x2028 := rfl
  have hparagraph : '\u2029'.toNat = 0x2029 := rfl
  simp only [wideBreaks, List.mem_cons, List.not_mem_nil, or_false, heq, isLineBreak, Bool.or_eq_true,
    Bool.and_eq_true, decide_eq_true_eq, beq_iff_eq]
  omega

variable {k : Nat} {d : Datum} {cs : List Char}

theorem isBlank_of_isSpace {c : Char} (h : isSpace c = true) : isBlank c = true := by
  simp only [isSpace, Bool.or_eq_true, beq_iff_eq] at h
  rcases h with ((rfl | rfl) | rfl) | rfl <;> decide

/-- On its own line, a document is trimmed to what its value is read from. -/
theorem read_trim_of_document (h : Document k d cs) : readDeep? k (trim cs) = .ok d := by
  obtain ⟨i, hspaced, hi, rfl, rfl⟩ := h
  obtain ⟨first, r, htext, hfirst⟩ := hi.opening
  obtain ⟨last, hlast, hvisible⟩ := hi.closing
  have hhead : i.text.head? = some first := by rw [htext, List.head?_cons]
  have htrim : trim i.spelling = i.text :=
    trim_between (fun c hc => isBlank_of_isSpace (hspaced.1 c hc))
      (fun c hc => isBlank_of_isSpace (hspaced.2 c hc)) hhead hlast ⟨hfirst.1.not_blank, hvisible.not_blank⟩
  rw [htrim]
  exact readDeep_of_document hi.document

theorem shows_of_document (h : Document k d cs) : shows cs = true := by
  obtain ⟨i, hspaced, hi, rfl, rfl⟩ := h
  obtain ⟨first, r, htext, hfirst⟩ := hi.opening
  rw [Item.spelling, shows_append, shows_append, htext, shows_cons, hfirst.1.not_blank]
  simp

/-- A line boundary in a document is a blank of the format or one beyond ASCII. -/
theorem isLineBreak_of_document (h : Document k d cs) (hfeed : '\n' ∉ cs) (hreturn : '\r' ∉ cs)
    {c : Char} (hc : c ∈ cs) (hbreak : isLineBreak c = true) : c ∈ wideBreaks := by
  refine mem_wideBreaks.mpr ⟨hbreak, ?_⟩
  rcases h.guarded.printable c hc with hspace | hprintable
  · simp only [isSpace, Bool.or_eq_true, beq_iff_eq] at hspace
    rcases hspace with ((rfl | rfl) | rfl) | rfl
    · exact absurd hbreak (by decide)
    · exact absurd hbreak (by decide)
    · exact absurd hc hfeed
    · exact absurd hc hreturn
  · simp only [isLineBreak, Bool.or_eq_true, Bool.and_eq_true, decide_eq_true_eq,
      beq_iff_eq] at hbreak
    omega

/-- A document with a line boundary beyond ASCII is broken: the boundary stands between quotes, and
both of them are shown. -/
theorem isBroken_of_document (h : Document k d cs) {c : Char} (hc : c ∈ cs) (hwide : c ∈ wideBreaks) :
    IsBroken cs := by
  obtain ⟨hbreak, hrange⟩ := mem_wideBreaks.mp hwide
  obtain ⟨before, after, rfl⟩ := List.append_of_mem hc
  obtain ⟨hbefore, hafter⟩ := h.guarded.quoted before c after rfl hrange
  have hquote {part : List Char} (hmem : '"' ∈ part) : shows part = true :=
    List.any_eq_true.mpr ⟨'"', hmem, by decide⟩
  refine ⟨before, c, after, rfl, hbreak, ?_, hquote hbefore, hquote hafter⟩
  rintro rfl
  exact absurd hwide (by decide)

/-- **Documents on lines come back one by one**, none of them lost, exactly if none holds a line
boundary beyond ASCII. -/
theorem jsonLines_eq_ok_iff {documents : List Datum} {texts : List String}
    (h : List.Forall₂ (fun d t => Document maxDepth d t.toList) documents texts)
    (hfeed : ∀ t ∈ texts, '\n' ∉ t.toList) (hreturn : ∀ t ∈ texts, '\r' ∉ t.toList) :
    jsonLines (join "\n" texts) = .ok (documents, 0) ↔
      ∀ t ∈ texts, ∀ c ∈ t.toList, c ∉ wideBreaks := by
  have hread : List.Forall₂ (fun d cs => Json.read? cs = .ok d) documents
      (texts.map fun t => trim t.toList) :=
    List.forall₂_map_right_iff.mpr (h.imp fun _ _ hd => read_trim_of_document hd)
  have hdocument : ∀ t ∈ texts, ∃ d, Document maxDepth d t.toList := by
    clear hfeed hreturn hread
    induction h with
    | nil => simp
    | cons hd _ ih => exact List.forall_mem_cons.mpr ⟨⟨_, hd⟩, ih⟩
  have hshows : ∀ p ∈ texts.map String.toList, shows p = true := by
    simp only [List.forall_mem_map]
    exact fun t ht => (hdocument t ht).elim fun _ => shows_of_document
  constructor
  · -- a broken document would make up two lines, and there are only as many as values
    intro hok t ht c hc hwide
    obtain ⟨d, hd⟩ := hdocument t ht
    have hreturns : ∀ p ∈ texts.map String.toList, '\r' ∉ p := by simpa using hreturn
    have hcount := (countP_lines hreturns hshows).2
      ⟨t.toList, List.mem_map_of_mem ht, isBroken_of_document hd hc hwide⟩
    have hlines := length_shownLines_of_ok hok
    rw [length_shownLines, toList_join, h.length_eq] at hlines
    rw [List.length_map] at hcount
    omega
  · intro hnarrow
    -- without feeds and returns, a document can only hold boundaries beyond ASCII
    have hunbroken : ∀ p ∈ texts.map String.toList, ∀ c ∈ p, isLineBreak c = false := by
      simp only [List.forall_mem_map]
      intro t ht c hc
      obtain ⟨d, hd⟩ := hdocument t ht
      rw [Bool.eq_false_iff]
      exact fun hbreak =>
        hnarrow t ht c hc (isLineBreak_of_document hd (hfeed t ht) (hreturn t ht) hc hbreak)
    have hne : ∀ p ∈ texts.map String.toList, p ≠ [] := by
      rintro p hp rfl
      exact absurd (hshows [] hp) (by decide)
    have hlines : shownLines (join "\n" texts) = texts.map fun t => trim t.toList := by
      rw [shownLines, toList_join, linesFrom_feedSeparated hne hunbroken, List.map_map,
        List.filter_eq_self.mpr]
      · rfl
      · simp only [List.forall_mem_map, Function.comp_apply, isEmpty_trim, Bool.not_not]
        exact fun t ht => hshows _ (List.mem_map_of_mem ht)
    exact jsonLines_of_read (hlines ▸ lineDocuments_of_read hread)

/-- A digit that is not zero is a document. -/
theorem document_digit {c : Char} (hzero : c ≠ '0') (hc : Decimal.isAsciiDigit c = true) :
    Document k (.int (Decimal.natOf [c])) [c] :=
  have hone : Whole [c] := .digits hzero (by simpa [IsDigits] using hc)
  have hnumeral : Numeral _ (signed false [c]) := .whole hone (by simp [Decimal.maxWholeDigits])
  (Spells.number hnumeral).document

/-- Two documents on lines, one of them a string with a character beyond ASCII. -/
theorem jsonLines_eq_ok_iff_accent :
    jsonLines (join "\n" ["1", "\"é\""]) = .ok ([.int 1, .text "é"], 0) := by
  refine (jsonLines_eq_ok_iff (.cons ?_ (.cons ?_ .nil)) (by decide) (by decide)).mpr ?_
  · exact document_digit (c := '1') (by decide) (by decide)
  · exact (Spells.text (s := ['é']) (.plain (by decide) (by decide) (by decide) .nil)).document
  · simp [wideBreaks]

/-- **A line separator in a string loses a document**: both of its halves are broken lines. -/
theorem jsonLines_separator :
    List.Forall₂ (fun d (t : String) => Document maxDepth d t.toList)
        [.int 1, .text "a\u2028b", .int 2] ["1", "\"a\u2028b\"", "2"] ∧
      (∀ t ∈ ["1", "\"a\u2028b\"", "2"], '\n' ∉ t.toList ∧ '\r' ∉ t.toList) ∧
      jsonLines (join "\n" ["1", "\"a\u2028b\"", "2"]) = .ok ([.int 1, .int 2], 2) := by
  refine ⟨.cons ?_ (.cons ?_ (.cons ?_ .nil)), by decide, by rfl⟩
  · exact document_digit (c := '1') (by decide) (by decide)
  · exact (Spells.text (s := ['a', '\u2028', 'b']) (.plain (by decide) (by decide) (by decide)
      (.plain (by decide) (by decide) (by decide)
        (.plain (by decide) (by decide) (by decide) .nil)))).document
  · exact document_digit (c := '2') (by decide) (by decide)

end Assay.Readers

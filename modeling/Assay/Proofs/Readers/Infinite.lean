import Assay.Proofs.Outcome
import Assay.Readers.CargoAudit
import Assay.Readers.Clippy
import Assay.Readers.Gosec
import Assay.Readers.Pylint
import Assay.Readers.Staticcheck

/-!
# Records with an infinite number

A number without end is the one value that cannot be made whole and is not a fault of its record alone.
For each tool, `Overflows` says which records meet one: all that is read before it is in order, and it
is the first of the positions that cannot be read.
-/

namespace Assay.Readers

/-! ## Fields -/

/-- A number without end. -/
def IsInfinite (d : Datum) : Prop :=
  ∃ x negative, d = .float x ∧ Decimal.Reading.ofFloat x = .infinite negative

/-- Of fields read as whole numbers one after another, the first one that cannot be read is infinite. -/
def MeetsInfinite : List Datum → Prop
  | [] => False
  | d :: rest => IsInfinite d ∨ ((∃ n, whole d = .ok n) ∧ MeetsInfinite rest)

theorem readDigits_ne_infinite (cs : List Char) : readDigits cs ≠ .error .infiniteNumber := by
  intro h
  unfold readDigits at h
  -- with a sign or without one, every complaint is about the value
  split at h
  all_goals
    dsimp only at h
    split at h
    · simp at h
    · split at h <;> simp at h

theorem wholeOfText_ne_infinite (s : String) : wholeOfText s ≠ .error .infiniteNumber := by
  unfold wholeOfText
  dsimp only
  split
  · rw [Ne, map_eq_error]
    exact readDigits_ne_infinite _
  · simp

theorem whole_eq_infinite {d : Datum} : whole d = .error .infiniteNumber ↔ IsInfinite d := by
  unfold whole
  split
  · simp [IsInfinite]
  next x =>
    rw [map_eq_error, wholeOfFloat]
    split
    · next hx => simp [IsInfinite, hx]
    · next negative hx => simp [IsInfinite, hx]
    · next hx => simp [IsInfinite, hx]
  next s =>
    refine ⟨fun h => absurd h (wholeOfText_ne_infinite s), ?_⟩
    rintro ⟨x, negative, htext, -⟩
    exact nomatch htext
  next hfloat _ =>
    constructor
    · intro h
      exact nomatch h
    · rintro ⟨x, negative, rfl, -⟩
      exact absurd rfl (hfloat x)

variable {α : Type}

/-- A field is read first, and then others. -/
theorem whole_bind_eq_infinite {d : Datum} {rest : List Datum} {f : Option Int → Field α}
    (hrest : ∀ n, whole d = .ok n → (f n = .error .infiniteNumber ↔ MeetsInfinite rest)) :
    (whole d >>= f) = .error .infiniteNumber ↔ MeetsInfinite (d :: rest) := by
  rw [bind_eq_error, whole_eq_infinite, MeetsInfinite]
  refine or_congr_right ⟨?_, ?_⟩
  · rintro ⟨n, hn, hf⟩
    exact ⟨⟨n, hn⟩, (hrest n hn).mp hf⟩
  · rintro ⟨⟨n, hn⟩, hmeets⟩
    exact ⟨n, hn, (hrest n hn).mpr hmeets⟩

theorem pure_ne_infinite {a : α} : (pure a : Field α) = .error .infiniteNumber ↔ MeetsInfinite [] := by
  simp [pure, Except.pure, MeetsInfinite]

theorem items_ne_infinite (d : Datum) : items d ≠ .error .infiniteNumber := by
  unfold items
  split
  · simp
  · split <;> simp

theorem itemTexts_ne_infinite (d : Datum) : itemTexts d ≠ .error .infiniteNumber := by
  rw [itemTexts, Ne, map_eq_error]
  exact items_ne_infinite d

/-! ## Tools with positions of one place -/

theorem Gosec.lineSpan_ne_infinite (d : Datum) : Gosec.lineSpan d ≠ .error .infiniteNumber := by
  unfold Gosec.lineSpan
  intro h
  split at h
  · exact nomatch h
  split at h
  · rcases bind_eq_error.mp h with h | ⟨n, -, h⟩
    · exact wholeOfText_ne_infinite _ h
    · exact nomatch h
  · rcases bind_eq_error.mp h with h | ⟨n, -, h⟩
    · exact wholeOfText_ne_infinite _ h
    split at h
    · exact nomatch h
    · rcases bind_eq_error.mp h with h | ⟨m, -, h⟩
      · exact wholeOfText_ne_infinite _ h
      · exact nomatch h

/-- An issue in a file, with lines that can be read, and an infinite column. -/
def Gosec.Overflows (item : Datum) : Prop :=
  (text (item.get "file")).isSome ∧ (∃ lines, Gosec.lineSpan (item.get "line") = .ok lines) ∧
    IsInfinite (item.get "column")

theorem Gosec.record_eq_infinite {root : Files.Path} {item : Datum} :
    Gosec.record root item = .error .infiniteNumber ↔ Gosec.Overflows item := by
  unfold Gosec.record Gosec.Overflows
  cases text (item.get "file") with
  | none => simp [throw_eq_error]
  | some file =>
      simp only [Option.isSome_some, true_and]
      rw [bind_eq_error]
      simp only [Gosec.lineSpan_ne_infinite, false_or]
      simp only [bind_eq_error, whole_eq_infinite]
      simp [pure, Except.pure]

/-- A message with a path, whose positions meet an infinite number. -/
def Pylint.Overflows (item : Datum) : Prop :=
  ((text (item.get "path")).or (text (item.get "filename"))).isSome ∧
    MeetsInfinite [item.get "column", item.get "endColumn", item.get "line", item.get "endLine"]

theorem Pylint.record_eq_infinite {root : Files.Path} {item : Datum} :
    Pylint.record root item = .error .infiniteNumber ↔ Pylint.Overflows item := by
  unfold Pylint.record Pylint.Overflows
  cases (text (item.get "path")).or (text (item.get "filename")) with
  | none => simp [throw_eq_error]
  | some path =>
      simp only [Option.isSome_some, true_and]
      refine whole_bind_eq_infinite fun column _ => ?_
      refine whole_bind_eq_infinite fun endColumn _ => ?_
      refine whole_bind_eq_infinite fun line _ => ?_
      exact whole_bind_eq_infinite fun endLine _ => pure_ne_infinite

/-- A record that is not ignored, with a place in a file, whose positions meet an infinite number. -/
def Staticcheck.Overflows (item : Datum) : Prop :=
  Text.lower ((item.get? "severity").getD (.text "")).display ≠ "ignored" ∧
    (item.get "location").isTable = true ∧
    ((text ((item.get "location").get "file")).or
      (text ((item.get "location").get "filename"))).isSome ∧
    MeetsInfinite [(item.get "location").get "line", (item.get "location").get "column",
      item.dig ["end", "line"], item.dig ["end", "column"]]

theorem Staticcheck.record_eq_infinite {root : Files.Path} {item : Datum} :
    Staticcheck.record root item = .error .infiniteNumber ↔ Staticcheck.Overflows item := by
  unfold Staticcheck.record Staticcheck.Overflows
  -- what is ignored or has no place is settled before any number is read
  by_cases hignored : Text.lower ((item.get? "severity").getD (.text "")).display = "ignored"
  · simp [hignored, pure, Except.pure]
  by_cases htable : (item.get "location").isTable = true
  · simp only [hignored, htable, beq_iff_eq, if_false, Bool.not_true, Bool.false_eq_true, ne_eq,
      not_false_eq_true, true_and]
    cases (text ((item.get "location").get "file")).or
        (text ((item.get "location").get "filename")) with
    | none => simp [throw_eq_error]
    | some file =>
        simp only [Option.isSome_some, true_and]
        refine whole_bind_eq_infinite fun line _ => ?_
        refine whole_bind_eq_infinite fun column _ => ?_
        refine whole_bind_eq_infinite fun endLine _ => ?_
        exact whole_bind_eq_infinite fun endColumn _ => pure_ne_infinite
  · simp [hignored, htable, throw_bind]

/-! ## Tools without positions -/

/-- Nothing in an advisory is read as a whole number. -/
theorem CargoAudit.record_ne_infinite (root : Files.Path) (entry : Datum) :
    CargoAudit.record root entry ≠ .error .infiniteNumber := by
  unfold CargoAudit.record
  intro h
  -- the only steps that may fail read rows of texts
  by_cases htable : (entry.get "advisory").isTable = true
  · simp only [htable, Bool.not_true, Bool.false_eq_true, if_false] at h
    rcases bind_eq_error.mp h with h | ⟨patched, -, h⟩
    · exact itemTexts_ne_infinite _ h
    rcases bind_eq_error.mp h with h | ⟨aliases, -, h⟩
    · exact itemTexts_ne_infinite _ h
    rcases bind_eq_error.mp h with h | ⟨categories, -, h⟩
    · exact itemTexts_ne_infinite _ h
    · simp [pure, Except.pure] at h
  · simp [htable, throw_bind] at h

/-! ## Diagnostics and their replacements -/

namespace Clippy

/-- The positions read in search of a replacement: the first line of every span, and the rest of the
first span that proposes one and has a line. -/
def fixPositions : List Datum → List Datum
  | [] => []
  | span :: rest =>
    span.get "line_start" ::
      match span.get "suggested_replacement", whole (span.get "line_start") with
      | .text _, .ok (some _) =>
        [span.get "column_start", span.get "line_end", span.get "column_end"]
      | _, _ => fixPositions rest

theorem fixIn_eq_infinite {spans : List Datum} :
    fixIn spans = .error .infiniteNumber ↔ MeetsInfinite (fixPositions spans) := by
  induction spans with
  | nil => simp [fixIn, fixPositions, MeetsInfinite]
  | cons span rest ih =>
      rw [fixIn, fixPositions, MeetsInfinite, bind_eq_error, whole_eq_infinite]
      refine or_congr_right ?_
      cases hline : whole (span.get "line_start") with
      | error fault => simp
      | ok line =>
          simp only [Except.ok.injEq, exists_eq_left', exists_eq', true_and]
          -- the other positions of a span are read only if it proposes something
          split
          · next replacement start htext =>
            rw [htext]
            refine whole_bind_eq_infinite fun startColumn _ => ?_
            refine whole_bind_eq_infinite fun endLine _ => ?_
            exact whole_bind_eq_infinite fun endColumn _ => pure_ne_infinite
          · next hnone =>
            split
            · next _ start htext hstart => exact absurd (Except.ok.inj hstart) (hnone _ start htext)
            · exact ih

/-- The positions of a diagnostic at a span: those of the span, then those read in search of a
replacement. -/
def positions (message span : Datum) : List Datum :=
  span.get "line_start" :: span.get "column_start" :: span.get "line_end" :: span.get "column_end" ::
    fixPositions (suggestionSpans message)

theorem finding_eq_infinite {root : Files.Path} {message span : Datum} {code level file : String} :
    finding root message span code level file = .error .infiniteNumber ↔
      MeetsInfinite (positions message span) := by
  unfold finding positions
  refine whole_bind_eq_infinite fun line _ => ?_
  refine whole_bind_eq_infinite fun column _ => ?_
  refine whole_bind_eq_infinite fun endLine _ => ?_
  refine whole_bind_eq_infinite fun endColumn _ => ?_
  rw [bind_eq_error, fixIn_eq_infinite]
  simp [pure, Except.pure]

/-- The diagnostic is a warning or an error. -/
def IsReported (message : Datum) : Prop :=
  Text.lower ((message.get? "level").getD (.text "")).display ∈ ["warning", "error"]

/-- A reported diagnostic with a code and a span in a file, whose positions meet an infinite number. -/
def Overflows (d : Datum) : Prop :=
  d.get "reason" = .text "compiler-message" ∧ (d.get "message").isTable = true ∧
    IsReported (d.get "message") ∧ (text ((d.get "message").dig ["code", "code"])).isSome ∧
    ∃ span, primarySpan? (d.get "message") = some span ∧ (text (span.get "file_name")).isSome ∧
      MeetsInfinite (positions (d.get "message") span)

theorem isReported_iff {message : Datum} :
    (Text.lower ((message.get? "level").getD (.text "")).display != "warning" &&
      Text.lower ((message.get? "level").getD (.text "")).display != "error") = false ↔
      IsReported message := by
  simp [IsReported, Decidable.or_iff_not_imp_left]

theorem record_eq_infinite {root : Files.Path} {d : Datum} :
    record root d = .error .infiniteNumber ↔ Overflows d := by
  unfold record Overflows
  split
  · next hreason =>
    generalize d.get "message" = message
    by_cases htable : message.isTable = true
    · by_cases hlevel : IsReported message
      · simp only [htable, isReported_iff.mpr hlevel, hreason, hlevel, Bool.not_true,
          Bool.false_eq_true, if_false, true_and]
        cases text (message.dig ["code", "code"]) with
        | none => simp [pure, Except.pure]
        | some code =>
            cases primarySpan? message with
            | none => simp [pure, Except.pure]
            | some span =>
                simp only [Option.isSome_some, Option.some.injEq, exists_eq_left', true_and]
                cases text (span.get "file_name") with
                | none => simp [throw_eq_error]
                | some file =>
                    simp only [Option.isSome_some, true_and]
                    -- past all the fields that a record may lack, only its positions can overflow
                    rw [bind_eq_error, finding_eq_infinite]
                    simp [pure, Except.pure]
      · have hsilent := mt isReported_iff.mp hlevel
        rw [Bool.not_eq_false] at hsilent
        simp [htable, hlevel, hsilent, pure, Except.pure]
    · simp [htable, throw_bind]
  · next hreason =>
    constructor
    · intro h
      exact nomatch h
    · rintro ⟨hmessage, -⟩
      exact absurd hmessage hreason

end Clippy

end Assay.Readers

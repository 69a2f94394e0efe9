import Assay.Json.Grammar
import Assay.Text.Blank

/-!
# Texts of the grammar

A value begins and ends with a visible character of ASCII (`Spells.opening`, `Spells.closing`). Control
characters never stand in its text raw, and characters beyond ASCII stand there only between quotes
(`Spells.guarded`).
-/

namespace Assay.Json

/-! ## The two ends of a value -/

@[simp] theorem commaSeparated_singleton (part : List Char) : commaSeparated [part] = part := by
  simp [commaSeparated]

@[simp] theorem commaSeparated_cons_cons (part next : List Char) (parts : List (List Char)) :
    commaSeparated (part :: next :: parts) = part ++ ',' :: commaSeparated (next :: parts) := by
  simp [commaSeparated]

/-- A visible character of ASCII. -/
def IsVisible (c : Char) : Prop := 33 ≤ c.toNat ∧ c.toNat < 127

instance : DecidablePred IsVisible := fun _ => inferInstanceAs (Decidable (_ ∧ _))

/-- A character that a value begins with. -/
def IsOpening (c : Char) : Prop := IsVisible c ∧ c ≠ ']' ∧ c ≠ '}'

theorem IsVisible.not_space {c : Char} (h : IsVisible c) : isSpace c = false := by
  have hne (d : Char) (hd : d.toNat < 33) : (c == d) = false := by
    rw [beq_eq_false_iff_ne]
    rintro rfl
    have := h.1
    omega
  simp [isSpace, hne ' ' (by decide), hne '\t' (by decide), hne '\n' (by decide), hne '\r' (by decide)]

theorem IsVisible.not_blank {c : Char} (h : IsVisible c) : Text.isBlank c = false := by
  obtain ⟨hlow, hhigh⟩ := h
  simp only [Text.isBlank, Bool.or_eq_false_iff, Bool.and_eq_false_iff, decide_eq_false_iff_not,
    beq_eq_false_iff_ne]
  omega

/-- A digit is visible and no bracket. -/
theorem isOpening_of_digit {c : Char} (h : Decimal.isAsciiDigit c = true) : IsOpening c := by
  have hrange : 48 ≤ c.toNat ∧ c.toNat ≤ 57 := by
    rw [Decimal.isAsciiDigit, Bool.and_eq_true, decide_eq_true_eq, decide_eq_true_eq] at h
    exact h
  refine ⟨⟨by omega, by omega⟩, ?_, ?_⟩ <;>
  · rintro rfl
    exact absurd h (by decide)

theorem Whole.head_digit {ds : List Char} (h : Whole ds) :
    ∃ d r, ds = d :: r ∧ Decimal.isAsciiDigit d = true := by
  cases h with
  | zero => exact ⟨'0', [], rfl, by decide⟩
  | digits _ hds => exact ⟨_, _, rfl, hds _ (by simp)⟩

theorem isVisible_of_mem_digits {ds : List Char} (h : IsDigits ds) : ∀ c ∈ ds, IsVisible c :=
  fun c hc => (isOpening_of_digit (h c hc)).1

theorem Whole.visible {ds : List Char} (h : Whole ds) : ∀ c ∈ ds, IsVisible c := by
  cases h with
  | zero => exact isVisible_of_mem_digits (by simp [IsDigits]; decide)
  | digits _ hds => exact isVisible_of_mem_digits hds

theorem isVisible_mark {e : Char} (he : e = 'e' ∨ e = 'E') : IsVisible e := by
  rcases he with rfl | rfl <;> decide

theorem Fraction.visible {fs point : List Char} (h : Fraction fs point) : ∀ c ∈ point, IsVisible c := by
  cases h with
  | absent => simp
  | present hds =>
      exact List.forall_mem_cons.mpr ⟨by decide, isVisible_of_mem_digits hds⟩

theorem Exponent.visible {n : Int} {es : List Char} (h : Exponent n es) : ∀ c ∈ es, IsVisible c := by
  cases h with
  | absent => simp
  | plain he hds => exact List.forall_mem_cons.mpr ⟨isVisible_mark he, isVisible_of_mem_digits hds⟩
  | plus he hds | minus he hds =>
      refine List.forall_mem_cons.mpr ⟨isVisible_mark he, List.forall_mem_cons.mpr ⟨?_, ?_⟩⟩
      · decide
      · exact isVisible_of_mem_digits hds

theorem isVisible_signed {negative : Bool} {cs : List Char} (h : ∀ c ∈ cs, IsVisible c) :
    ∀ c ∈ signed negative cs, IsVisible c := by
  cases negative with
  | false => exact h
  | true => exact List.forall_mem_cons.mpr ⟨by decide, h⟩

/-- All of a number is visible. -/
theorem Numeral.visible {d : Datum} {cs : List Char} (h : Numeral d cs) : ∀ c ∈ cs, IsVisible c := by
  cases h with
  | whole hds _ => exact isVisible_signed hds.visible
  | double hds hpoint hes _ =>
      refine isVisible_signed fun c hc => ?_
      rcases List.mem_append.mp hc with hc | hc
      · exact hds.visible c hc
      rcases List.mem_append.mp hc with hc | hc
      · exact hpoint.visible c hc
      · exact hes.visible c hc

/-- A number begins with its sign or a digit. -/
theorem Numeral.head {d : Datum} {cs : List Char} (h : Numeral d cs) :
    ∃ c r, cs = c :: r ∧ (c = '-' ∨ Decimal.isAsciiDigit c = true) := by
  have hsigned (negative : Bool) (ds tail : List Char) (hds : Whole ds) :
      ∃ c r, signed negative (ds ++ tail) = c :: r ∧ (c = '-' ∨ Decimal.isAsciiDigit c = true) := by
    obtain ⟨c, r, rfl, hc⟩ := hds.head_digit
    cases negative with
    | false => exact ⟨c, r ++ tail, rfl, .inr hc⟩
    | true => exact ⟨'-', c :: (r ++ tail), rfl, .inl rfl⟩
  cases h with
  | whole hds _ => simpa using hsigned _ _ [] hds
  | double hds _ _ _ => exact hsigned _ _ _ hds

/-- **A value begins** with a visible character that is no closing bracket or brace. -/
theorem Spells.opening {k : Nat} {d : Datum} {cs : List Char} (h : Spells k d cs) :
    ∃ c r, cs = c :: r ∧ IsOpening c := by
  cases h with
  | number hd =>
      obtain ⟨c, r, hcs, rfl | hc⟩ := hd.head
      · exact ⟨_, _, hcs, by decide, by decide, by decide⟩
      · exact ⟨_, _, hcs, isOpening_of_digit hc⟩
  | _ => exact ⟨_, _, rfl, by decide, by decide, by decide⟩

/-- **A value ends** with a visible character. -/
theorem Spells.closing {k : Nat} {d : Datum} {cs : List Char} (h : Spells k d cs) :
    ∃ c, cs.getLast? = some c ∧ IsVisible c := by
  cases h with
  | number hd =>
      obtain ⟨c, r, rfl, -⟩ := hd.head
      exact ⟨_, List.getLast?_eq_some_getLast (List.cons_ne_nil c r), hd.visible _ (List.getLast_mem _)⟩
  | null | true | false => exact ⟨_, rfl, by decide⟩
  | text | emptyList | list | emptyTable | table =>
      rw [← List.cons_append, List.getLast?_concat]
      exact ⟨_, rfl, by decide⟩

/-! ## What stands in a text raw -/

/-- A text without raw control characters in which characters beyond ASCII stand between quotes. -/
structure Guarded (cs : List Char) : Prop where
  printable : ∀ c ∈ cs, isSpace c = true ∨ 32 ≤ c.toNat
  quoted : ∀ before c after, cs = before ++ c :: after → 127 ≤ c.toNat → '"' ∈ before ∧ '"' ∈ after

theorem Guarded.of_visible {cs : List Char} (h : ∀ c ∈ cs, isSpace c = true ∨ IsVisible c) :
    Guarded cs where
  printable c hc := (h c hc).imp_right fun hv => by
    have := hv.1
    omega
  quoted before c after heq hc := by
    exfalso
    rcases h c (by simp [heq]) with hs | hv
    · simp only [isSpace, Bool.or_eq_true, beq_iff_eq] at hs
      rcases hs with ((rfl | rfl) | rfl) | rfl <;> exact absurd hc (by decide)
    · have := hv.2
      omega

theorem Guarded.append {as bs : List Char} (ha : Guarded as) (hb : Guarded bs) : Guarded (as ++ bs) where
  printable c hc := (List.mem_append.mp hc).elim (ha.printable c) (hb.printable c)
  quoted before c after heq hc := by
    rcases List.append_eq_append_iff.mp heq with ⟨more, rfl, rfl⟩ | ⟨more, rfl, hmore⟩
    · obtain ⟨hbefore, hafter⟩ := hb.quoted more c after rfl hc
      exact ⟨List.mem_append_right _ hbefore, hafter⟩
    · cases more with
      | nil =>
          -- the character is the first of the second text, where no quote stands before it
          exact absurd (hb.quoted [] c after hmore.symm hc).1 (by simp)
      | cons m more =>
          obtain ⟨rfl, rfl⟩ := List.cons.inj hmore
          obtain ⟨hbefore, hafter⟩ := ha.quoted before c more rfl hc
          exact ⟨hbefore, List.mem_append_left _ hafter⟩

theorem Guarded.cons {c : Char} {cs : List Char} (hc : IsVisible c) (h : Guarded cs) :
    Guarded (c :: cs) := by
  have hone : Guarded [c] := .of_visible (by simp [hc])
  exact hone.append h

theorem Guarded.of_spacing {ws : List Char} (h : IsSpacing ws) : Guarded ws :=
  .of_visible fun c hc => .inl (h c hc)

theorem Guarded.commaSeparated {parts : List (List Char)} (h : ∀ p ∈ parts, Guarded p) :
    Guarded (commaSeparated parts) := by
  induction parts with
  | nil => exact .of_visible (by simp [Json.commaSeparated])
  | cons part parts ih =>
      obtain ⟨hpart, hparts⟩ := List.forall_mem_cons.mp h
      cases parts with
      | nil => simpa using hpart
      | cons next parts =>
          rw [commaSeparated_cons_cons]
          exact hpart.append ((ih hparts).cons (by decide))

theorem printable_of_hexValue {c : Char} {n : Nat} (h : hexValue? c = some n) : 32 ≤ c.toNat := by
  have hrange (low : Char) (hlow : 32 ≤ low.toNat) (hle : low ≤ c) : 32 ≤ c.toNat :=
    Nat.le_trans hlow hle
  unfold hexValue? at h
  split at h
  · next hc => exact hrange '0' (by decide) (by simp_all)
  split at h
  · next hc => exact hrange 'a' (by decide) (by simp_all)
  split at h
  · next hc => exact hrange 'A' (by decide) (by simp_all)
  · simp at h

theorem printable_of_unit {a b c d : Char} {n : Nat} (h : unit? a b c d = some n) :
    ∀ x ∈ [a, b, c, d], 32 ≤ x.toNat := by
  simp only [unit?, Option.bind_eq_bind, Option.pure_def, Option.bind_eq_some_iff] at h
  obtain ⟨w, hw, x, hx, y, hy, z, hz, -⟩ := h
  simp [printable_of_hexValue hw, printable_of_hexValue hx, printable_of_hexValue hy,
    printable_of_hexValue hz]

theorem printable_of_shortEscape {e c : Char} (h : shortEscape? e = some c) : 32 ≤ e.toNat := by
  unfold shortEscape? at h
  split at h
  case h_9 => simp at h
  all_goals decide

/-- No control character stands between quotes. -/
theorem Quotes.printable {s cs : List Char} (h : Quotes s cs) : ∀ c ∈ cs, 32 ≤ c.toNat := by
  have hslash : 32 ≤ '\\'.toNat ∧ 32 ≤ 'u'.toNat := by decide
  induction h with
  | nil => simp
  | plain hc _ _ _ ih => exact List.forall_mem_cons.mpr ⟨hc, ih⟩
  | short he _ ih =>
      exact List.forall_mem_cons.mpr ⟨hslash.1, List.forall_mem_cons.mpr ⟨printable_of_shortEscape he, ih⟩⟩
  | unit hn _ _ _ ih | half hn _ _ ih =>
      have hdigits := printable_of_unit hn
      simp only [List.forall_mem_cons] at hdigits ⊢
      exact ⟨hslash.1, hslash.2, hdigits.1, hdigits.2.1, hdigits.2.2.1, hdigits.2.2.2.1, ih⟩
  | pair hn _ hm _ _ ih =>
      have hdigits := printable_of_unit hn
      have hdigits' := printable_of_unit hm
      simp only [List.forall_mem_cons] at hdigits hdigits' ⊢
      exact ⟨hslash.1, hslash.2, hdigits.1, hdigits.2.1, hdigits.2.2.1, hdigits.2.2.2.1, hslash.1,
        hslash.2, hdigits'.1, hdigits'.2.1, hdigits'.2.2.1, hdigits'.2.2.2.1, ih⟩

theorem Quotes.guarded {s cs : List Char} (h : Quotes s cs) : Guarded ('"' :: (cs ++ ['"'])) where
  printable c hc := by
    simp only [List.mem_cons, List.mem_append, List.not_mem_nil, or_false] at hc
    rcases hc with rfl | hc | rfl
    · exact .inr (by decide)
    · exact .inr (h.printable c hc)
    · exact .inr (by decide)
  quoted before c after heq hc := by
    have hquote : c ≠ '"' := by
      rintro rfl
      exact absurd hc (by decide)
    constructor
    · cases before with
      | nil => exact absurd (List.cons.inj heq).1.symm hquote
      | cons b before => exact List.mem_cons.mpr (.inl (List.cons.inj heq).1)
    · -- the closing quote is the last character, and it is not the one in question
      have hlast : '"' ∈ (c :: after).getLast? := by
        have hwhole := congrArg List.getLast? heq
        rw [← List.cons_append, List.getLast?_concat, List.getLast?_append] at hwhole
        simpa [List.getLast?_cons] using hwhole.symm
      cases after with
      | nil => exact absurd (Option.some.inj hlast) hquote
      | cons a after => exact List.mem_of_getLast? (by simpa [List.getLast?_cons] using hlast)

theorem Item.guarded {i : Item} (hspaced : i.IsSpaced) (h : Guarded i.text) : Guarded i.spelling :=
  (Guarded.of_spacing hspaced.1).append (h.append (.of_spacing hspaced.2))

/-- **Characters beyond ASCII stand between quotes**, and control characters nowhere. -/
theorem Spells.guarded {k : Nat} {d : Datum} {cs : List Char} (h : Spells k d cs) : Guarded cs := by
  have hvisible {c : Char} (hc : IsVisible c) : Guarded [c] := .of_visible (by simp [hc])
  have hword {w : List Char} (hw : w.all (fun c => decide (IsVisible c)) = Bool.true) : Guarded w :=
    .of_visible fun c hc => .inr (of_decide_eq_true (List.all_eq_true.mp hw c hc))
  induction h with
  | null | true | false => exact hword (by decide)
  | number hd => exact .of_visible fun c hc => .inr (hd.visible c hc)
  | text hs => exact hs.guarded
  | emptyList hws | emptyTable hws =>
      exact ((Guarded.of_spacing hws).append (hvisible (by decide))).cons (by decide)
  | @list k items _ hspaced _ ih =>
      have hitems : Guarded (Json.commaSeparated (items.map Item.spelling)) := by
        refine .commaSeparated fun p hp => ?_
        obtain ⟨i, hi, rfl⟩ := List.mem_map.mp hp
        exact Item.guarded (hspaced i hi) (ih i hi)
      exact (hitems.append (hvisible (by decide))).cons (by decide)
  | @table k entries _ hspaced hkeys _ ih =>
      -- a key stands between quotes of its own, and the value after the colon is guarded as it was
      have hentries : Guarded (Json.commaSeparated (entries.map Entry.spelling)) := by
        refine .commaSeparated fun p hp => ?_
        obtain ⟨e, he, rfl⟩ := List.mem_map.mp hp
        obtain ⟨hbefore, hafter, hitem⟩ := hspaced e he
        have hkey : Guarded (e.before ++ ('"' :: (e.quotes ++ ['"']))) :=
          (Guarded.of_spacing hbefore).append (hkeys e he).guarded
        have hvalue : Guarded (e.after ++ (':' :: e.item.spelling)) :=
          (Guarded.of_spacing hafter).append
            ((Item.guarded hitem (ih e he)).cons (by decide))
        simpa [Entry.spelling] using hkey.append hvalue
      exact (hentries.append (hvisible (by decide))).cons (by decide)

/-! ## Documents -/

variable {k : Nat} {d : Datum} {cs : List Char}

/-- A document need not have blanks around it. -/
theorem Spells.document (h : Spells k d cs) : Document k d cs :=
  ⟨⟨[], d, cs, []⟩, ⟨by simp [IsSpacing], by simp [IsSpacing]⟩, h, rfl, by simp [Item.spelling]⟩

theorem Document.guarded (h : Document k d cs) : Guarded cs := by
  obtain ⟨i, hspaced, hi, -, rfl⟩ := h
  exact Item.guarded hspaced hi.guarded

end Assay.Json

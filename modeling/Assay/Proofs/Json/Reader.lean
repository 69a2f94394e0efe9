import Mathlib.Data.List.TakeWhile
import Assay.Proofs.Json.Grammar

/-!
# Every text of the grammar is read

The reader reads a text of the grammar as the value that it stands for, and leaves what follows it
(`value_of_spells`). A number is the one text that has no end of its own, so what follows must be
something that no number goes on with: a blank, a comma, or a closing bracket or brace (`Ends`).
-/

namespace Assay.Json

/-! ## Where a value ends -/

/-- What may follow a value. -/
def Ends : List Char → Prop
  | [] => True
  | c :: _ => isSpace c = true ∨ c = ',' ∨ c = ']' ∨ c = '}'

theorem Ends.of_spacing {ws cs : List Char} (hws : IsSpacing ws) (h : Ends cs) : Ends (ws ++ cs) := by
  cases ws with
  | nil => exact h
  | cons w ws => exact Or.inl (hws w (by simp))

/-- No value goes on with one of the characters that end it. -/
theorem Ends.head_ne {c d : Char} {cs : List Char} (h : Ends (c :: cs)) (hspace : isSpace d = false)
    (hcomma : d ≠ ',') (hbracket : d ≠ ']') (hbrace : d ≠ '}') : c ≠ d := by
  rintro rfl
  rcases h with h | h | h | h
  · simp [hspace] at h
  · exact hcomma h
  · exact hbracket h
  · exact hbrace h

theorem Ends.not_digit {c : Char} {cs : List Char} (h : Ends (c :: cs)) :
    Decimal.isAsciiDigit c = false := by
  rcases h with h | rfl | rfl | rfl
  · simp only [isSpace, Bool.or_eq_true, beq_iff_eq] at h
    rcases h with ((rfl | rfl) | rfl) | rfl <;> decide
  all_goals decide

/-! ## Blanks -/

theorem skipSpace_append {ws cs : List Char} (hws : IsSpacing ws) :
    skipSpace (ws ++ cs) = skipSpace cs := List.dropWhile_append_of_pos hws

theorem skipSpace_cons {c : Char} {cs : List Char} (hc : isSpace c = false) :
    skipSpace (c :: cs) = c :: cs := by
  simp [skipSpace, hc]

/-! ## Numbers -/

/-- A row of digits with no digit after it. -/
theorem spanDigits_append {ds cs : List Char} (hds : IsDigits ds)
    (hcs : ∀ c r, cs = c :: r → Decimal.isAsciiDigit c = false) : spanDigits (ds ++ cs) = (ds, cs) := by
  have hstop : cs.takeWhile Decimal.isAsciiDigit = [] ∧ cs.dropWhile Decimal.isAsciiDigit = cs := by
    cases cs with
    | nil => simp
    | cons c r => simp [hcs c r rfl]
  rw [spanDigits, List.takeWhile_append_of_pos hds, List.dropWhile_append_of_pos hds, hstop.1, hstop.2,
    List.append_nil]

theorem wholeDigits_of_whole {ds cs : List Char} (h : Whole ds)
    (hcs : ∀ c r, cs = c :: r → Decimal.isAsciiDigit c = false) :
    wholeDigits? (ds ++ cs) = some (ds, cs) := by
  cases h with
  | zero => rfl
  | digits hne hds =>
      rw [List.cons_append, wholeDigits?.eq_2 _ (fun r h => hne (List.cons.inj h).1),
        ← List.cons_append, spanDigits_append hds hcs]

theorem fraction_of_fraction {fs point cs : List Char} (h : Fraction fs point)
    (hdigit : ∀ c r, cs = c :: r → Decimal.isAsciiDigit c = false)
    (hpoint : ∀ r, cs ≠ '.' :: r) :
    fraction? (point ++ cs) = if point = [] then none else some (fs, cs) := by
  cases h with
  | absent =>
      rw [List.nil_append, if_pos rfl]
      exact fraction?.eq_2 cs hpoint
  | present hds =>
      rw [List.cons_append, fraction?, spanDigits_append hds hdigit, if_neg (by simp)]

theorem exponent_of_exponent {n : Int} {es cs : List Char} (h : Exponent n es)
    (hdigit : ∀ c r, cs = c :: r → Decimal.isAsciiDigit c = false)
    (hmark : ∀ c r, cs = c :: r → c ≠ 'e' ∧ c ≠ 'E') :
    exponent? (es ++ cs) = if es = [] then none else some (n, cs) := by
  have hletter {e : Char} (he : e = 'e' ∨ e = 'E') : (e == 'e' || e == 'E') = true := by
    rcases he with rfl | rfl <;> rfl
  cases h with
  | absent =>
      cases cs with
      | nil => rfl
      | cons c r => simp [exponent?, hmark c r rfl]
  | @plain e d ds he hds =>
      have hspan : spanDigits (d :: (ds ++ cs)) = (d :: ds, cs) := spanDigits_append hds hdigit
      have hd : Decimal.isAsciiDigit d = true := hds d (by simp)
      rw [List.cons_append, List.cons_append, exponent?, if_pos (hletter he), hspan]
      · simp
      · rintro more heq
        rw [(List.cons.inj heq).1] at hd
        exact absurd hd (by decide)
      · rintro more heq
        rw [(List.cons.inj heq).1] at hd
        exact absurd hd (by decide)
  | @plus e d ds he hds =>
      have hspan : spanDigits (d :: (ds ++ cs)) = (d :: ds, cs) := spanDigits_append hds hdigit
      simp [exponent?, hletter he, hspan]
  | @minus e d ds he hds =>
      have hspan : spanDigits (d :: (ds ++ cs)) = (d :: ds, cs) := spanDigits_append hds hdigit
      simp [exponent?, hletter he, hspan]

/-- The tail of a double begins with no digit: a point, an exponent mark, or what ends the number. -/
theorem tail_not_digit {fs point es rest : List Char} {n : Int} (hpoint : Fraction fs point)
    (hes : Exponent n es) (hrest : Ends rest) {c : Char} {r : List Char}
    (h : point ++ (es ++ rest) = c :: r) : Decimal.isAsciiDigit c = false := by
  cases hpoint with
  | present => rw [← (List.cons.inj h).1]; decide
  | absent =>
      cases hes with
      | absent => exact (show Ends (c :: r) from h ▸ hrest).not_digit
      | plain he | plus he | minus he =>
          rw [← (List.cons.inj h).1]
          rcases he with rfl | rfl <;> decide

/-- A number is read to its end. -/
theorem number_of_numeral {ds fs point es rest : List Char} {n : Int} (start : List Char)
    (negative : Bool) (hds : Whole ds) (hpoint : Fraction fs point) (hes : Exponent n es) (hrest : Ends rest) :
    number start negative (ds ++ (point ++ (es ++ rest))) =
      if point = [] ∧ es = [] then
        if ds.length > Decimal.maxWholeDigits then .error ⟨.tooLong ds.length, rest⟩
        else .ok (.int (if negative then -(Decimal.natOf ds : Int) else Decimal.natOf ds), rest)
      else .ok (.float (Decimal.floatOfParts negative ds fs n), rest) := by
  have hexp : exponent? (es ++ rest) = if es = [] then none else some (n, rest) := by
    refine exponent_of_exponent hes (fun c r h => (h ▸ hrest : Ends (c :: r)).not_digit) fun c r h => ?_
    have hends : Ends (c :: r) := h ▸ hrest
    exact ⟨hends.head_ne (by decide) (by decide) (by decide) (by decide),
      hends.head_ne (by decide) (by decide) (by decide) (by decide)⟩
  have hfrac : fraction? (point ++ (es ++ rest)) =
      if point = [] then none else some (fs, es ++ rest) := by
    refine fraction_of_fraction hpoint (fun c r h => tail_not_digit .absent hes hrest h) ?_
    rintro r h
    cases hes with
    | absent =>
        have hends : Ends ('.' :: r) := h ▸ hrest
        exact hends.head_ne (by decide) (by decide) (by decide) (by decide) rfl
    | plain he | plus he | minus he =>
        rcases he with rfl | rfl <;> exact absurd (List.cons.inj h).1 (by decide)
  rw [number, wholeDigits_of_whole hds fun c r h => tail_not_digit hpoint hes hrest h]
  dsimp only
  rw [hfrac]
  by_cases hp : point = []
  · obtain ⟨rfl, rfl⟩ : point = [] ∧ fs = [] := ⟨hp, by cases hpoint <;> simp_all⟩
    simp only [List.nil_append, if_true, true_and]
    rw [hexp]
    by_cases he : es = []
    · simp [he]
    · simp [he]
  · simp only [hp, if_false, false_and]
    rw [hexp]
    by_cases he : es = []
    · obtain rfl : n = 0 := by cases hes <;> simp_all
      simp [he]
    · simp [he]

theorem scalar_of_digit {d : Char} {cs : List Char} (hd : Decimal.isAsciiDigit d = true) :
    scalar (d :: cs) = number (d :: cs) false (d :: cs) := by
  -- no other kind of value begins with a digit
  have hne (c : Char) (hc : Decimal.isAsciiDigit c = false) (r : List Char) : d :: cs ≠ c :: r := by
    intro h
    rw [(List.cons.inj h).1, hc] at hd
    exact absurd hd (by decide)
  rw [scalar]
  all_goals exact fun r => hne _ (by decide) _

theorem scalar_of_minus {d : Char} {cs : List Char} (hd : Decimal.isAsciiDigit d = true) :
    scalar ('-' :: d :: cs) = number ('-' :: d :: cs) true (d :: cs) := by
  rw [scalar]
  intro r h
  rw [(List.cons.inj h).1] at hd
  exact absurd hd (by decide)

/-- The text of a number is read as that number. -/
theorem scalar_of_numeral {d : Datum} {cs rest : List Char} (h : Numeral d cs) (hrest : Ends rest) :
    scalar (cs ++ rest) = .ok (d, rest) := by
  have hscalar (negative : Bool) (ds tail : List Char) (hds : Whole ds) :
      ∃ start, scalar (signed negative (ds ++ tail)) = number start negative (ds ++ tail) := by
    obtain ⟨c, r, rfl, hc⟩ := hds.head_digit
    cases negative with
    | false => exact ⟨_, scalar_of_digit hc⟩
    | true => exact ⟨_, scalar_of_minus hc⟩
  have hsigned (negative : Bool) (cs : List Char) :
      signed negative cs ++ rest = signed negative (cs ++ rest) := by cases negative <;> rfl
  cases h with
  | @whole negative ds hds hlength =>
      obtain ⟨start, hstart⟩ := hscalar negative ds rest hds
      rw [hsigned, hstart]
      have hread := number_of_numeral start negative hds .absent .absent hrest
      simpa [Nat.not_lt.mpr hlength] using hread
  | @double negative ds fs point es n hds hpoint hes hne =>
      obtain ⟨start, hstart⟩ := hscalar negative ds (point ++ (es ++ rest)) hds
      rw [hsigned, List.append_assoc, List.append_assoc, hstart,
        number_of_numeral _ negative hds hpoint hes hrest, if_neg fun hnone => hne.elim (· hnone.1) (· hnone.2)]

/-! ## Strings -/

theorem hexFour_of_unit {a b c d : Char} {n : Nat} {cs rest : List Char} (h : unit? a b c d = some n) :
    hexFour? (a :: b :: c :: d :: (cs ++ '"' :: rest)) = some (n, cs ++ '"' :: rest) := by
  obtain ⟨e, more, hmore⟩ : ∃ e more, cs ++ '"' :: rest = e :: more := by cases cs <;> simp
  rw [hmore]
  simp only [unit?, Option.bind_eq_bind, Option.pure_def, Option.bind_eq_some_iff] at h
  obtain ⟨w, hw, x, hx, y, hy, z, hz, hn⟩ := h
  simpa [hexFour?, hw, hx, hy, hz] using hn

theorem unitChar_of_single {n : Nat} {rest : List Char} (hhigh : ¬ IsHigh n) (hlow : ¬ IsLow n) :
    unitChar n rest = .ok (Char.ofNat n, rest) := by
  simp only [IsHigh, IsLow] at hhigh hlow
  simp [unitChar, hhigh, hlow]

theorem unitChar_of_low {n : Nat} {rest : List Char} (hlow : IsLow n) :
    unitChar n rest = .ok ('\ufffd', rest) := by
  have hhigh : ¬ (55296 ≤ n ∧ n < 56320) := by
    have := hlow.1
    omega
  simp only [IsLow] at hlow
  simp [unitChar, hhigh, hlow]

/-- What opens with `\u` in a string goes on with four hexadecimal digits. -/
theorem Quotes.unit_digits {s cs : List Char} (h : Quotes s ('\\' :: 'u' :: cs)) :
    ∃ a b c d n rest, cs = a :: b :: c :: d :: rest ∧ unit? a b c d = some n := by
  cases h with
  | plain _ _ hne => exact absurd rfl hne
  | short hshort => exact absurd hshort (by simp [shortEscape?])
  | unit hn => exact ⟨_, _, _, _, _, _, rfl, hn⟩
  | pair hn => exact ⟨_, _, _, _, _, _, rfl, hn⟩
  | half hn => exact ⟨_, _, _, _, _, _, rfl, hn⟩

theorem unitChar_of_high {n : Nat} {s cs rest : List Char} (hhigh : IsHigh n) (hnext : NoLowNext cs)
    (h : Quotes s cs) : unitChar n (cs ++ '"' :: rest) = .ok ('\ufffd', cs ++ '"' :: rest) := by
  have hrange : (0xd800 ≤ n && n < 0xdc00) = true := by simpa [IsHigh] using hhigh
  unfold unitChar
  rw [if_pos hrange]
  split
  · next more hmore =>
    -- what follows are the digits of another unit, which closes no pair
    obtain ⟨more, rfl, rfl⟩ : ∃ more', cs = '\\' :: 'u' :: more' ∧ more = more' ++ '"' :: rest := by
      rcases cs with _ | ⟨c, _ | ⟨c', more'⟩⟩
      · simp at hmore
      · simp at hmore
      · simp only [List.cons_append, List.cons.injEq] at hmore
        exact ⟨more', by rw [hmore.1, hmore.2.1], hmore.2.2.symm⟩
    obtain ⟨a, b, c, d, m, tail, rfl, hm⟩ := h.unit_digits
    have hfour : hexFour? (a :: b :: c :: d :: tail ++ '"' :: rest) = some (m, tail ++ '"' :: rest) :=
      hexFour_of_unit hm
    have hlow := hnext a b c d m tail rfl hm
    simp only [IsLow] at hlow
    rw [hfour]
    simp [hlow]
  · rfl

theorem unitChar_of_pair {a b c d : Char} {n m : Nat} {cs rest : List Char} (hhigh : IsHigh n)
    (hm : unit? a b c d = some m) (hlow : IsLow m) :
    unitChar n ('\\' :: 'u' :: a :: b :: c :: d :: cs ++ '"' :: rest) =
      .ok (Char.ofNat (0x10000 + 0x400 * (n - 0xd800) + (m - 0xdc00)), cs ++ '"' :: rest) := by
  simp only [IsHigh, IsLow] at hhigh hlow
  simp [unitChar, hhigh, hlow, hexFour_of_unit hm]

/-! Each form of a character in a string is read in one step. -/

theorem stringFrom_of_plain {start acc cs : List Char} {c : Char} {fuel : Nat} (hc : 32 ≤ c.toNat)
    (hquote : c ≠ '"') (hslash : c ≠ '\\') :
    stringFrom start (fuel + 1) acc (c :: cs) = stringFrom start fuel (c :: acc) cs := by
  rw [stringFrom]
  · exact if_neg (by omega)
  all_goals simp [hquote, hslash]

theorem stringFrom_of_short {start acc cs : List Char} {e c : Char} {fuel : Nat}
    (hshort : shortEscape? e = some c) :
    stringFrom start (fuel + 1) acc ('\\' :: e :: cs) = stringFrom start fuel (c :: acc) cs := by
  rw [stringFrom]
  · rw [hshort]
  · rintro rfl
    simp [shortEscape?] at hshort

/-- A unit is read with the unit that it makes up a pair with. -/
theorem stringFrom_of_unit {start acc cs after rest : List Char} {a b c d e : Char} {n fuel : Nat}
    (hn : unit? a b c d = some n) (he : unitChar n (cs ++ '"' :: rest) = .ok (e, after)) :
    stringFrom start (fuel + 1) acc ('\\' :: 'u' :: a :: b :: c :: d :: (cs ++ '"' :: rest)) =
      stringFrom start fuel (e :: acc) after := by
  rw [stringFrom, hexFour_of_unit hn]
  dsimp only
  rw [he]

/-- A string is read to its closing quote. The induction is on what stands between the quotes; the
characters read so far change along it. -/
theorem stringFrom_of_quotes {start s cs rest : List Char} (h : Quotes s cs) {fuel : Nat}
    (hfuel : cs.length < fuel) (acc : List Char) :
    stringFrom start fuel acc (cs ++ '"' :: rest) = .ok (String.ofList (acc.reverse ++ s), rest) := by
  induction h generalizing fuel acc with
  | nil =>
      obtain ⟨fuel, rfl⟩ := Nat.exists_eq_succ_of_ne_zero (Nat.ne_zero_of_lt hfuel)
      simp [stringFrom]
  | @plain c s cs hc hquote hslash _ ih =>
      obtain ⟨fuel, rfl⟩ := Nat.exists_eq_succ_of_ne_zero (Nat.ne_zero_of_lt hfuel)
      rw [List.cons_append, stringFrom_of_plain hc hquote hslash, ih (by simpa using hfuel)]
      simp
  | @short e c s cs hshort _ ih =>
      obtain ⟨fuel, rfl⟩ := Nat.exists_eq_succ_of_ne_zero (Nat.ne_zero_of_lt hfuel)
      rw [List.cons_append, List.cons_append, stringFrom_of_short hshort, ih (by simp at hfuel; omega)]
      simp
  | @unit a b c d n s cs hn hhigh hlow _ ih =>
      obtain ⟨fuel, rfl⟩ := Nat.exists_eq_succ_of_ne_zero (Nat.ne_zero_of_lt hfuel)
      simp only [List.cons_append]
      rw [stringFrom_of_unit hn (unitChar_of_single hhigh hlow), ih (by simp at hfuel; omega)]
      simp
  | @pair a b c d a' b' c' d' n m s cs hn hhigh hm hlow _ ih =>
      obtain ⟨fuel, rfl⟩ := Nat.exists_eq_succ_of_ne_zero (Nat.ne_zero_of_lt hfuel)
      have hstep : stringFrom start (fuel + 1) acc ('\\' :: 'u' :: a :: b :: c :: d ::
          (('\\' :: 'u' :: a' :: b' :: c' :: d' :: cs) ++ '"' :: rest)) =
            stringFrom start fuel (_ :: acc) (cs ++ '"' :: rest) :=
        stringFrom_of_unit hn (unitChar_of_pair hhigh hm hlow)
      simp only [List.cons_append] at hstep ⊢
      rw [hstep, ih (by simp at hfuel; omega)]
      simp
  | @half a b c d n s cs hn hhalf hs ih =>
      obtain ⟨fuel, rfl⟩ := Nat.exists_eq_succ_of_ne_zero (Nat.ne_zero_of_lt hfuel)
      have hchar : unitChar n (cs ++ '"' :: rest) = .ok ('\ufffd', cs ++ '"' :: rest) := by
        rcases hhalf with ⟨hhigh, hnext⟩ | hlow
        · exact unitChar_of_high hhigh hnext hs
        · exact unitChar_of_low hlow
      simp only [List.cons_append]
      rw [stringFrom_of_unit hn hchar, ih (by simp at hfuel; omega)]
      simp

/-- **A string is read** as the characters that stand between its quotes. -/
theorem string_of_quotes {s cs : List Char} (h : Quotes s cs) (rest : List Char) :
    string (cs ++ '"' :: rest) = .ok (String.ofList s, rest) := by
  rw [string, stringFrom_of_quotes h (by rw [List.length_append, List.length_cons]; omega)]
  simp

/-! ## Lists and tables -/

/-- A text that a reader of values reads as the value, and that begins no list's or table's end. -/
structure IsReadBy (read : List Char → Step Datum) (value : Datum) (text : List Char) : Prop where
  opening : ∃ c r, text = c :: r ∧ IsOpening c
  read : ∀ rest, Ends rest → read (text ++ rest) = .ok (value, rest)

variable {read : List Char → Step Datum}

/-- The blanks in front of an item are skipped. -/
theorem skipSpace_item {i : Item} (hspaced : i.IsSpaced) (hread : IsReadBy read i.value i.text)
    (rest : List Char) : skipSpace (i.spelling ++ rest) = i.text ++ (i.after ++ rest) := by
  obtain ⟨c, r, htext, hc⟩ := hread.opening
  rw [Item.spelling, List.append_assoc, List.append_assoc, skipSpace_append hspaced.1, htext,
    List.cons_append, skipSpace_cons hc.1.not_space]

theorem ends_after {i : Item} (hspaced : i.IsSpaced) {rest : List Char} (hrest : Ends rest) :
    Ends (i.after ++ rest) := hrest.of_spacing hspaced.2

/-- Skipping blanks skips no comma. -/
theorem count_skipSpace (cs : List Char) : (skipSpace cs).count ',' = cs.count ',' := by
  have hnone : (cs.takeWhile isSpace).count ',' = 0 := by
    rw [List.count_eq_zero]
    intro hmem
    exact absurd (List.mem_takeWhile_imp hmem) (by decide)
  have hsplit := congrArg (List.count ',') (List.takeWhile_append_dropWhile (p := isSpace) (l := cs))
  rw [List.count_append, hnone, Nat.zero_add] at hsplit
  exact hsplit

/-- There is a comma between any two neighbours. -/
theorem length_le_count_commaSeparated (parts : List (List Char)) :
    parts.length ≤ (commaSeparated parts).count ',' + 1 := by
  induction parts with
  | nil => simp
  | cons part parts ih =>
      cases parts with
      | nil => simp
      | cons next parts =>
          rw [commaSeparated_cons_cons, List.count_append, List.count_cons_self, List.length_cons]
          omega

/-- There is fuel enough for all parts of a list or table. -/
theorem length_le_skipSpace (parts : List (List Char)) (rest : List Char) :
    parts.length ≤ (skipSpace (commaSeparated parts ++ rest)).length + 1 := by
  have hcount := length_le_count_commaSeparated parts
  have hlength := List.count_le_length (a := ',') (l := skipSpace (commaSeparated parts ++ rest))
  rw [count_skipSpace, List.count_append] at hlength
  omega

/-- Items are read one after another up to the closing bracket. -/
theorem itemsFrom_of_items {items : List Item} (hne : items ≠ []) (hspaced : ∀ i ∈ items, i.IsSpaced)
    (hread : ∀ i ∈ items, IsReadBy read i.value i.text) {fuel : Nat} (hfuel : items.length ≤ fuel)
    (acc : List Datum) (rest : List Char) :
    itemsFrom read fuel acc
        (skipSpace (commaSeparated (items.map Item.spelling) ++ ']' :: rest)) =
      .ok (acc.reverse ++ items.map Item.value, rest) := by
  induction items generalizing fuel acc with
  | nil => exact absurd rfl hne
  | cons i items ih =>
      obtain ⟨hspace, hspaces⟩ := List.forall_mem_cons.mp hspaced
      obtain ⟨hone, hall⟩ := List.forall_mem_cons.mp hread
      obtain ⟨fuel, rfl⟩ : ∃ m, fuel = m + 1 := ⟨fuel - 1, by simp at hfuel; omega⟩
      cases items with
      | nil =>
          have hends : Ends (']' :: rest) := .inr (.inr (.inl rfl))
          rw [List.map_cons, List.map_nil, commaSeparated_singleton, skipSpace_item hspace hone,
            itemsFrom, hone.read _ (ends_after hspace hends)]
          dsimp only
          rw [skipSpace_append hspace.2, skipSpace_cons (by decide)]
          simp
      | cons j items =>
          have hends (cs : List Char) : Ends (',' :: cs) := .inr (.inl rfl)
          rw [List.map_cons, List.map_cons, commaSeparated_cons_cons, List.append_assoc,
            List.cons_append, skipSpace_item hspace hone, itemsFrom,
            hone.read _ (ends_after hspace (hends _))]
          dsimp only
          rw [skipSpace_append hspace.2, skipSpace_cons (by decide), ← List.map_cons]
          show itemsFrom read fuel _ _ = _
          rw [ih (by simp) hspaces hall (by simpa using hfuel)]
          simp

/-- The first part of a list or table begins with a visible character that closes neither. -/
theorem skipSpace_items {items : List Item} (hne : items ≠ []) (hspaced : ∀ i ∈ items, i.IsSpaced)
    (hread : ∀ i ∈ items, IsReadBy read i.value i.text) (rest : List Char) :
    ∃ c r, skipSpace (commaSeparated (items.map Item.spelling) ++ rest) = c :: r ∧ c ≠ ']' := by
  obtain ⟨i, items, rfl⟩ := List.exists_cons_of_ne_nil hne
  obtain ⟨tail, htail⟩ : ∃ tail, commaSeparated ((i :: items).map Item.spelling) ++ rest =
      i.spelling ++ tail := by
    cases items <;> simp
  obtain ⟨c, r, htext, hc⟩ := (hread i (by simp)).opening
  refine ⟨c, r ++ (i.after ++ tail), ?_, hc.2.1⟩
  rw [htail, skipSpace_item (hspaced i (by simp)) (hread i (by simp)), htext, List.cons_append]

/-- A list is read item by item. -/
theorem list_of_items {items : List Item} (hne : items ≠ []) (hspaced : ∀ i ∈ items, i.IsSpaced)
    (hread : ∀ i ∈ items, IsReadBy read i.value i.text) (rest : List Char) :
    list read (commaSeparated (items.map Item.spelling) ++ ']' :: rest) =
      .ok (.list (items.map Item.value), rest) := by
  obtain ⟨c, r, hskip, hc⟩ := skipSpace_items hne hspaced hread (']' :: rest)
  have hfuel := length_le_skipSpace (items.map Item.spelling) (']' :: rest)
  rw [List.length_map] at hfuel
  have hitems := itemsFrom_of_items hne hspaced hread hfuel [] rest
  rw [list]
  rw [hskip] at hitems ⊢
  split
  · next h => exact absurd (List.cons.inj h).1 hc
  · rw [hitems]
    rfl

/-- An entry is its key, a colon, and its value as an item. -/
theorem skipSpace_entry {e : Entry} (hspaced : e.IsSpaced) (rest : List Char) :
    skipSpace (e.spelling ++ rest) =
      '"' :: (e.quotes ++ '"' :: (e.after ++ (':' :: (e.item.spelling ++ rest)))) := by
  rw [Entry.spelling, List.append_assoc, skipSpace_append hspaced.1, List.cons_append,
    skipSpace_cons (by decide)]
  simp

/-- A key, a colon and a value are read alike, whatever follows the value. -/
theorem entriesFrom_entry {e : Entry} {fuel : Nat} (acc : List (String × Datum)) (hspace : e.IsSpaced)
    (hkey : Quotes e.key e.quotes) (hread : IsReadBy read e.item.value e.item.text) (c : Char)
    (cs : List Char) (hc : isSpace c = false) (hends : Ends (c :: cs)) :
    entriesFrom read (fuel + 1) acc (skipSpace (e.spelling ++ c :: cs)) =
      match c :: cs with
      | '}' :: after => .ok ((e.binding :: acc).reverse, after)
      | ',' :: after => entriesFrom read fuel (e.binding :: acc) (skipSpace after)
      | other => .error ⟨.comma, other⟩ := by
  rw [skipSpace_entry hspace, entriesFrom, string_of_quotes hkey]
  dsimp only
  rw [skipSpace_append hspace.2.1, skipSpace_cons (by decide)]
  simp only [skipSpace_item hspace.2.2 hread, hread.read _ (ends_after hspace.2.2 hends),
    skipSpace_append hspace.2.2.2, skipSpace_cons hc]
  rfl

/-- Entries are read one after another up to the closing brace. -/
theorem entriesFrom_of_entries {entries : List Entry} (hne : entries ≠ [])
    (hspaced : ∀ e ∈ entries, e.IsSpaced) (hkeys : ∀ e ∈ entries, Quotes e.key e.quotes)
    (hread : ∀ e ∈ entries, IsReadBy read e.item.value e.item.text) {fuel : Nat}
    (hfuel : entries.length ≤ fuel) (acc : List (String × Datum)) (rest : List Char) :
    entriesFrom read fuel acc
        (skipSpace (commaSeparated (entries.map Entry.spelling) ++ '}' :: rest)) =
      .ok (acc.reverse ++ entries.map Entry.binding, rest) := by
  induction entries generalizing fuel acc with
  | nil => exact absurd rfl hne
  | cons e entries ih =>
      obtain ⟨hspace, hspaces⟩ := List.forall_mem_cons.mp hspaced
      obtain ⟨hkey, hkeys⟩ := List.forall_mem_cons.mp hkeys
      obtain ⟨hone, hall⟩ := List.forall_mem_cons.mp hread
      obtain ⟨fuel, rfl⟩ : ∃ m, fuel = m + 1 := ⟨fuel - 1, by simp at hfuel; omega⟩
      have hentry := @entriesFrom_entry _ e fuel acc hspace hkey hone
      cases entries with
      | nil =>
          rw [List.map_cons, List.map_nil, commaSeparated_singleton,
            hentry '}' rest (by decide) (.inr (.inr (.inr rfl)))]
          simp
      | cons e' entries =>
          rw [List.map_cons, List.map_cons, commaSeparated_cons_cons, List.append_assoc,
            List.cons_append, hentry ',' _ (by decide) (.inr (.inl rfl)), ← List.map_cons]
          show entriesFrom read fuel _ _ = _
          rw [ih (by simp) hspaces hkeys hall (by simpa using hfuel)]
          simp

/-- A table is read entry by entry. -/
theorem table_of_entries {entries : List Entry} (hne : entries ≠ [])
    (hspaced : ∀ e ∈ entries, e.IsSpaced) (hkeys : ∀ e ∈ entries, Quotes e.key e.quotes)
    (hread : ∀ e ∈ entries, IsReadBy read e.item.value e.item.text) (rest : List Char) :
    table read (commaSeparated (entries.map Entry.spelling) ++ '}' :: rest) =
      .ok (Datum.ofEntries (entries.map Entry.binding), rest) := by
  have hfuel := length_le_skipSpace (entries.map Entry.spelling) ('}' :: rest)
  rw [List.length_map] at hfuel
  have hentries := entriesFrom_of_entries hne hspaced hkeys hread hfuel [] rest
  obtain ⟨r, hskip⟩ : ∃ r, skipSpace (commaSeparated (entries.map Entry.spelling) ++ '}' :: rest) =
      '"' :: r := by
    obtain ⟨e, entries, rfl⟩ := List.exists_cons_of_ne_nil hne
    have hspace := hspaced e (by simp)
    cases entries with
    | nil => exact ⟨_, by rw [List.map_cons, List.map_nil, commaSeparated_singleton, skipSpace_entry hspace]⟩
    | cons e' entries =>
        exact ⟨_, by rw [List.map_cons, List.map_cons, commaSeparated_cons_cons, List.append_assoc,
          skipSpace_entry hspace]⟩
  rw [table]
  rw [hskip] at hentries ⊢
  show Except.map _ (entriesFrom read _ [] ('"' :: r)) = _
  rw [hentries]
  rfl

/-! ## Values -/

theorem value_eq_scalar {k : Nat} {c : Char} {cs : List Char} (hbracket : c ≠ '[') (hbrace : c ≠ '{') :
    value k (c :: cs) = scalar (c :: cs) := by
  cases k with
  | zero | succ => rw [value] <;> simp [hbracket, hbrace]

/-- **A text of the grammar is read** as the value that it stands for, and what follows it is left.
The induction is on the shape of the text. -/
theorem value_of_spells {k : Nat} {d : Datum} {cs rest : List Char} (h : Spells k d cs)
    (hrest : Ends rest) : value k (cs ++ rest) = .ok (d, rest) := by
  induction h generalizing rest with
  | @null k | @true k | @false k => cases k <;> rfl
  | @number k d cs hd =>
      obtain ⟨c, r, rfl, hc⟩ := hd.head
      have hne (e : Char) (hsign : e ≠ '-') (hdigit : Decimal.isAsciiDigit e = .false) : c ≠ e := by
        rintro rfl
        exact hc.elim hsign fun h => by simp [hdigit] at h
      rw [List.cons_append, value_eq_scalar (hne '[' (by decide) (by decide))
        (hne '{' (by decide) (by decide))]
      exact scalar_of_numeral hd hrest
  | @text k s cs hs =>
      rw [List.cons_append, List.append_assoc, value_eq_scalar (by decide) (by decide), scalar,
        List.singleton_append, string_of_quotes hs]
      rfl
  | @emptyList k ws hws =>
      rw [List.cons_append, List.append_assoc, value, list, skipSpace_append hws,
        List.singleton_append, skipSpace_cons (by decide)]
      rfl
  | @list k items hne hspaced hitems ih =>
      rw [List.cons_append, List.append_assoc, value]
      exact list_of_items hne hspaced (fun i hi => ⟨(hitems i hi).opening, fun _ => ih i hi⟩) rest
  | @emptyTable k ws hws =>
      rw [List.cons_append, List.append_assoc, value, table, skipSpace_append hws,
        List.singleton_append, skipSpace_cons (by decide)]
      rfl
  | @table k entries hne hspaced hkeys hitems ih =>
      rw [List.cons_append, List.append_assoc, value]
      exact table_of_entries hne hspaced hkeys
        (fun e he => ⟨(hitems e he).opening, fun _ => ih e he⟩) rest

/-- **A document of the grammar is read** as the value that it stands for. -/
theorem readDeep_of_document {k : Nat} {d : Datum} {cs : List Char} (h : Document k d cs) :
    readDeep? k cs = .ok d := by
  obtain ⟨i, hspaced, hi, rfl, rfl⟩ := h
  have hread : IsReadBy (value k) i.value i.text := ⟨hi.opening, fun _ => value_of_spells hi⟩
  have hskip := skipSpace_item hspaced hread []
  have hafter : skipSpace i.after = [] := List.dropWhile_eq_nil_iff.mpr hspaced.2
  have hends : Ends i.after := by simpa using ends_after hspaced (show Ends [] from trivial)
  -- the mark that some texts begin with is neither a blank nor the beginning of a value
  have hmark (r : List Char) : i.spelling ≠ '\ufeff' :: r := by
    intro hmark
    rw [hmark, List.append_nil, skipSpace_cons (by decide), List.append_nil] at hskip
    obtain ⟨c, r', htext, hc⟩ := hi.opening
    rw [htext, List.cons_append, List.cons.injEq] at hskip
    rw [← hskip.1] at hc
    exact absurd hc.1 (by decide)
  rw [readDeep?]
  · rw [List.append_nil, List.append_nil] at hskip
    rw [hskip, hread.read _ hends]
    dsimp only
    rw [hafter]
  · exact hmark

end Assay.Json

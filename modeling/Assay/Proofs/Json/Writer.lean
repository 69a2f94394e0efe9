import Assay.Json.Writer
import Assay.Proofs.Json.Limits
import Assay.Proofs.Json.Reader
import Assay.Proofs.Text.Split

/-!
# Reading what was written

A value is *plain* if it is made of what JSON has (`Plain`): no doubles, no moments, and no key twice in
a table. In every layout the writer puts a plain value into a text that spells this value, unless one
of its whole numbers has more digits than are read (`Plain.spells`). So the reader finds the value again
(`read?_writeAt`).
-/

namespace Assay.Json

/-! ## Plain values -/

/-- A value without doubles and moments, in whose tables every key stands once. At most `k` lists and
tables stand in each other. -/
inductive Plain : (k : Nat) → Datum → Prop
  | null {k : Nat} : Plain k .null
  | bool {k : Nat} (b : Bool) : Plain k (.bool b)
  | int {k : Nat} (n : Int) : Plain k (.int n)
  | text {k : Nat} (s : String) : Plain k (.text s)
  | list {k : Nat} {items : List Datum} : (∀ d ∈ items, Plain k d) → Plain (k + 1) (.list items)
  | table {k : Nat} {entries : List (String × Datum)} : (entries.map Prod.fst).Nodup →
      (∀ e ∈ entries, Plain k e.2) → Plain (k + 1) (.table entries)

attribute [simp] Plain.null Plain.int Plain.text

/-! ## Strings -/

theorem unit?_hexDigit : ∀ n < 32, unit? '0' '0' (hexDigit (n / 16)) (hexDigit (n % 16)) = some n := by
  decide

/-- A character in quotes is spelled by its escape. -/
theorem Quotes.escaped {s cs : List Char} (c : Char) (h : Quotes s cs) :
    Quotes (c :: s) (Json.escaped c ++ cs) := by
  unfold Json.escaped
  split
  case h_8 hquote hslash _ _ _ _ _ =>
    split
    · next hcontrol =>
        have hunit := Quotes.unit (unit?_hexDigit c.toNat hcontrol) (by simp [IsHigh]; omega)
          (by simp [IsLow]; omega) h
        rwa [Char.ofNat_toNat] at hunit
    · next hcontrol => exact .plain (Nat.not_lt.mp hcontrol) hquote hslash h
  all_goals exact .short rfl h

theorem quotes_flatMap_escaped (s : List Char) : Quotes s (s.flatMap escaped) := by
  induction s with
  | nil => exact .nil
  | cons c s ih => exact Quotes.escaped c ih

theorem toList_quotedText (s : String) :
    (quotedText s).toList = '"' :: (s.toList.flatMap escaped ++ ['"']) := by
  simp [quotedText]

theorem spells_quotedText {k : Nat} (s : String) : Spells k (.text s) (quotedText s).toList := by
  have h := Spells.text (k := k) (quotes_flatMap_escaped s.toList)
  rwa [String.ofList_toList, ← toList_quotedText] at h

/-! ## Numbers -/

theorem whole_toDigits (n : Nat) : Whole (Nat.toDigits 10 n) := by
  by_cases hzero : n = 0
  · subst hzero
    exact .zero
  · have hdigits : IsDigits (Nat.toDigits 10 n) := fun _ => Decimal.isAsciiDigit_of_mem_toDigits
    have hhead := Decimal.head_toDigits hzero
    cases hcs : Nat.toDigits 10 n with
    | nil => exact absurd hcs Nat.toDigits_ne_nil
    | cons d ds =>
        rw [hcs] at hdigits hhead
        exact .digits (by simpa using hhead) hdigits

/-- A whole number is spelled by its digits, if they are not too many to be read. -/
theorem numeral_intText {n : Int} (h : n.natAbs < 10 ^ Decimal.maxWholeDigits) :
    Numeral (.int n) (Decimal.intText n).toList := by
  have hdigits {m : Nat} (hm : m < 10 ^ Decimal.maxWholeDigits) :
      (Nat.toDigits 10 m).length ≤ Decimal.maxWholeDigits :=
    Decimal.length_toDigits_le (by decide) hm
  cases n with
  | ofNat m =>
      have hnumeral : Numeral _ (signed false (Nat.toDigits 10 m)) :=
        .whole (whole_toDigits m) (hdigits h)
      rw [Decimal.natOf_toDigits] at hnumeral
      simpa [Decimal.intText, signed] using hnumeral
  | negSucc m =>
      have hnumeral : Numeral _ (signed true (Nat.toDigits 10 (m + 1))) :=
        .whole (whole_toDigits (m + 1)) (hdigits h)
      rw [Decimal.natOf_toDigits] at hnumeral
      simpa [Decimal.intText, signed, Int.negSucc_eq] using hnumeral

/-! ## Lists and tables -/

theorem isSpacing_nil : IsSpacing [] := by simp [IsSpacing]

theorem isSpacing_break (l : Layout) (depth : Nat) : IsSpacing (l.break depth).toList := by
  intro c hc
  unfold Layout.break at hc
  split at hc
  · simp at hc
  · simp only [String.toList_append, String.toList_ofList, List.mem_append, List.mem_replicate] at hc
    rcases hc with hc | ⟨-, rfl⟩
    · obtain rfl : c = '\n' := by simpa using hc
      rfl
    · rfl

/-- Every part with the blanks after it: none but for the last part. -/
def withEnding {α : Type} (ending : List Char) : List α → List (α × List Char)
  | [] => []
  | [a] => [(a, ending)]
  | a :: b :: rest => (a, []) :: withEnding ending (b :: rest)

section Ending

variable {α : Type} {ending : List Char}

@[simp] theorem map_fst_withEnding (parts : List α) :
    (withEnding ending parts).map Prod.fst = parts := by
  fun_induction withEnding ending parts with
  | case1 => rfl
  | case2 a => rfl
  | case3 a b rest ih => rw [List.map_cons, ih]

theorem withEnding_eq_nil {parts : List α} : withEnding ending parts = [] ↔ parts = [] := by
  rw [← List.map_eq_nil_iff (f := Prod.fst), map_fst_withEnding]

theorem isSpacing_of_mem_withEnding (h : IsSpacing ending) {parts : List α} {p : α × List Char}
    (hp : p ∈ withEnding ending parts) : IsSpacing p.2 := by
  fun_induction withEnding ending parts with
  | case1 => exact absurd hp List.not_mem_nil
  | case2 a =>
      obtain rfl := List.mem_singleton.mp hp
      exact h
  | case3 a b rest ih =>
      rcases List.mem_cons.mp hp with rfl | hp
      · exact isSpacing_nil
      · exact ih hp

theorem mem_of_mem_withEnding {parts : List α} {p : α × List Char}
    (hp : p ∈ withEnding ending parts) : p.1 ∈ parts := by
  have h := List.mem_map_of_mem (f := Prod.fst) hp
  rwa [map_fst_withEnding] at h

theorem commaSeparated_cons {part : List Char} {parts : List (List Char)} (h : parts ≠ []) :
    commaSeparated (part :: parts) = part ++ ',' :: commaSeparated parts := by
  cases parts with
  | nil => exact absurd rfl h
  | cons next parts => exact commaSeparated_cons_cons part next parts

/-- Joined parts, each behind the same blanks, are parts with commas between them. -/
theorem join_eq_commaSeparated (before after : String) (text : α → String) (a : α) (rest : List α) :
    before.toList ++ ((Text.join ("," ++ before) ((a :: rest).map text)).toList ++ after.toList) =
      commaSeparated ((withEnding after.toList (a :: rest)).map fun p =>
        before.toList ++ ((text p.1).toList ++ p.2)) := by
  induction rest generalizing a with
  | nil => simp [withEnding, Text.join]
  | cons b rest ih =>
      have hne : withEnding after.toList (b :: rest) ≠ [] :=
        fun h => List.cons_ne_nil _ _ (withEnding_eq_nil.mp h)
      have htail := ih b
      rw [List.map_cons] at htail
      simp only [withEnding, List.map_cons, Text.join_cons_cons]
      rw [commaSeparated_cons (by simpa using hne), ← htail]
      simp

end Ending

theorem writeItems_eq_map (l : Layout) (depth : Nat) (items : List Datum) :
    writeItems l depth items = items.map (writeAt l depth) := by
  induction items with
  | nil => rfl
  | cons d rest ih => rw [writeItems, ih, List.map_cons]

theorem writeEntries_eq_map (l : Layout) (depth : Nat) (entries : List (String × Datum)) :
    writeEntries l depth entries =
      entries.map fun e => quotedText e.1 ++ l.colon ++ writeAt l depth e.2 := by
  induction entries with
  | nil => rfl
  | cons e rest ih => rw [writeEntries, ih, List.map_cons]

/-- The text of a row of parts between brackets: without any part nothing stands between them. -/
theorem toList_bracketed {α : Type} (l : Layout) (opening closing : String) (depth : Nat)
    (text : α → String) (a : α) (rest : List α) :
    (l.bracketed opening closing depth ((a :: rest).map text)).toList =
      opening.toList ++ (commaSeparated ((withEnding (l.break depth).toList (a :: rest)).map fun p =>
        (l.break (depth + 1)).toList ++ ((text p.1).toList ++ p.2)) ++ closing.toList) := by
  rw [← join_eq_commaSeparated]
  simp [Layout.bracketed]

/-- The blanks behind a colon. -/
def Layout.gap (l : Layout) : List Char := if l.indent.isSome then [' '] else []

theorem Layout.isSpacing_gap (l : Layout) : IsSpacing l.gap := by
  unfold gap
  split <;> simp [IsSpacing, isSpace]

theorem Layout.toList_colon (l : Layout) : l.colon.toList = ':' :: l.gap := by
  unfold colon gap
  split <;> rfl

/-- A value with the blanks after it, as an item of a list. -/
def Layout.item (l : Layout) (depth : Nat) (p : Datum × List Char) : Item where
  before := (l.break depth).toList
  value := p.1
  text := (writeAt l depth p.1).toList
  after := p.2

/-- A key and its value with the blanks after it, as an entry of a table. -/
def Layout.entry (l : Layout) (depth : Nat) (p : (String × Datum) × List Char) : Entry where
  before := (l.break depth).toList
  key := p.1.1.toList
  quotes := p.1.1.toList.flatMap escaped
  after := []
  item := ⟨l.gap, p.1.2, (writeAt l depth p.1.2).toList, p.2⟩

theorem Layout.spelling_entry (l : Layout) (depth : Nat) (p : (String × Datum) × List Char) :
    (l.entry depth p).spelling = (l.break depth).toList ++
      ((quotedText p.1.1 ++ l.colon ++ writeAt l depth p.1.2).toList ++ p.2) := by
  simp [Entry.spelling, Item.spelling, entry, toList_quotedText, toList_colon]

/-- **A list is spelled** if its items are. -/
theorem spells_list {k : Nat} (l : Layout) (depth : Nat) {items : List Datum}
    (h : ∀ d ∈ items, Spells k d (writeAt l (depth + 1) d).toList) :
    Spells (k + 1) (.list items) (writeAt l depth (.list items)).toList := by
  rw [writeAt, writeItems_eq_map]
  cases items with
  | nil => simpa [Layout.bracketed] using Spells.emptyList isSpacing_nil
  | cons d rest =>
      rw [toList_bracketed]
      let parts := (withEnding (l.break depth).toList (d :: rest)).map (l.item (depth + 1))
      -- each item takes the blanks that are written after it, which makes it an item of the grammar
      have hvalues : parts.map Item.value = d :: rest := by
        rw [List.map_map]
        exact map_fst_withEnding _
      have hlist : Spells (k + 1) (.list (parts.map Item.value))
          ('[' :: (commaSeparated (parts.map Item.spelling) ++ [']'])) := by
        refine .list (by simp [parts, withEnding_eq_nil]) (fun i hi => ?_) fun i hi => ?_
        · obtain ⟨p, hp, rfl⟩ := List.mem_map.mp hi
          exact ⟨isSpacing_break l _, isSpacing_of_mem_withEnding (isSpacing_break l _) hp⟩
        · obtain ⟨p, hp, rfl⟩ := List.mem_map.mp hi
          exact h p.1 (mem_of_mem_withEnding hp)
      rw [hvalues, List.map_map] at hlist
      exact hlist

/-- **A table is spelled** if its values are and no key stands twice. -/
theorem spells_table {k : Nat} (l : Layout) (depth : Nat) {entries : List (String × Datum)}
    (hkeys : (entries.map Prod.fst).Nodup)
    (h : ∀ e ∈ entries, Spells k e.2 (writeAt l (depth + 1) e.2).toList) :
    Spells (k + 1) (.table entries) (writeAt l depth (.table entries)).toList := by
  rw [writeAt, writeEntries_eq_map]
  cases entries with
  | nil => simpa [Layout.bracketed] using Spells.emptyTable isSpacing_nil
  | cons e rest =>
      rw [toList_bracketed]
      let parts := (withEnding (l.break depth).toList (e :: rest)).map (l.entry (depth + 1))
      -- the entries of the grammar are made as those of a list are, and keep keys and values
      have hbindings : parts.map Entry.binding = e :: rest := by
        have hbinding : Entry.binding ∘ l.entry (depth + 1) = Prod.fst := by
          funext p
          simp [Entry.binding, Layout.entry]
        rw [List.map_map, hbinding]
        exact map_fst_withEnding _
      have hspellings : parts.map Entry.spelling =
          (withEnding (l.break depth).toList (e :: rest)).map fun p => (l.break (depth + 1)).toList ++
            ((quotedText p.1.1 ++ l.colon ++ writeAt l (depth + 1) p.1.2).toList ++ p.2) := by
        rw [List.map_map]
        exact List.map_congr_left fun p _ => l.spelling_entry (depth + 1) p
      have htable : Spells (k + 1) (Datum.ofEntries (parts.map Entry.binding))
          ('{' :: (commaSeparated (parts.map Entry.spelling) ++ ['}'])) := by
        refine .table (by simp [parts, withEnding_eq_nil]) (fun i hi => ?_) (fun i hi => ?_) fun i hi => ?_
        · obtain ⟨p, hp, rfl⟩ := List.mem_map.mp hi
          exact ⟨isSpacing_break l _, isSpacing_nil, l.isSpacing_gap,
            isSpacing_of_mem_withEnding (isSpacing_break l _) hp⟩
        · obtain ⟨p, hp, rfl⟩ := List.mem_map.mp hi
          exact quotes_flatMap_escaped _
        · obtain ⟨p, hp, rfl⟩ := List.mem_map.mp hi
          exact h p.1 (mem_of_mem_withEnding hp)
      rw [hbindings, Datum.ofEntries_of_nodup hkeys, hspellings] at htable
      exact htable

/-! ## Plain values -/

/-- **What is written spells the value**, if the value is plain and no whole number in it has more digits
than are read. -/
theorem Plain.spells {k : Nat} {d : Datum} (h : Plain k d) (hfits : d.Fits) (l : Layout) (depth : Nat) :
    Spells k d (writeAt l depth d).toList := by
  induction h generalizing depth with
  | null =>
      rw [writeAt]
      exact .null
  | bool b =>
      rw [writeAt]
      cases b with
      | true => exact .true
      | false => exact .false
  | int n =>
      rw [writeAt]
      exact .number (numeral_intText (Datum.fits_int.mp hfits))
  | text s =>
      rw [writeAt]
      exact spells_quotedText s
  | list hitems ih =>
      exact spells_list l depth fun d hd =>
        ih d hd (Datum.fits_list.mp hfits d hd) (depth + 1)
  | table hkeys _ ih =>
      exact spells_table l depth hkeys fun e he =>
        ih e he (Datum.fits_table.mp hfits e he) (depth + 1)

/-- **Round trip.** A plain value is read from the text it is written to, in every layout, exactly if no
whole number in it has more digits than are read. -/
theorem read?_writeAt {d : Datum} (h : Plain maxDepth d) (l : Layout) (depth : Nat) :
    read? (writeAt l depth d).toList = .ok d ↔ d.Fits :=
  ⟨fits_of_read?, fun hfits => readDeep_of_document (h.spells hfits l depth).document⟩

end Assay.Json

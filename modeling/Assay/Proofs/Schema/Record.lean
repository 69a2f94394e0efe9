import Assay.Proofs.Datum
import Assay.Proofs.Json.Writer
import Assay.Schema.Record
import Mathlib.Tactic.SplitIfs

/-!
# Records that were written

A document *conveys* a value if it is plain in the sense of JSON and the value is read from it
(`Conveys`). A written record holds every field under its spelling with capitals inside, so it conveys its
value if its fields do (`conveys_written`). The values that fields have are conveyed by what is written
for them: texts, numbers, names of a vocabulary, lists, tables of counts, and what may be missing.
-/

namespace Assay.Schema

/-!
## Readings that succeed

What has been read if a reading succeeds: side by side every part (`seq_eq_good`), of a record the fields
(`Record.required_eq_good`, `Record.given_eq_good`), and a whole number in its range.
-/

section Readings

variable {α β : Type}

theorem Checked.map_eq_good {c : Checked α} {f : α → β} {b : β} :
    f <$> c = .good b ↔ ∃ a, c = .good a ∧ f a = b := by
  cases c with
  | good a =>
      show Checked.good (f a) = .good b ↔ _
      simp
  | bad faults =>
      show Checked.bad faults = .good b ↔ _
      simp

theorem Checked.seq_eq_good {f : Checked (α → β)} {c : Checked α} {b : β} :
    f <*> c = .good b ↔ ∃ g a, f = .good g ∧ c = .good a ∧ g a = b := by
  cases f with
  | good g =>
      cases c with
      | good a =>
          show Checked.good (g a) = .good b ↔ _
          simp
      | bad faults =>
          show Checked.bad faults = .good b ↔ _
          simp
  | bad faults =>
      cases c with
      | good a =>
          show Checked.bad faults = .good b ↔ _
          simp
      | bad others =>
          show Checked.bad (faults ++ others) = .good b ↔ _
          simp

@[simp] theorem Checked.under_eq_good {step : Step} {c : Checked α} {a : α} :
    c.under step = .good a ↔ c = .good a := by
  cases c <;> simp [Checked.under]

theorem Checked.andThen_eq_good {c : Checked α} {f : α → Checked β} {b : β} :
    c.andThen f = .good b ↔ ∃ a, c = .good a ∧ f a = .good b := by
  cases c <;> simp [Checked.andThen]

theorem obeying_eq_good {broken : α → Option String} {c : Checked α} {a : α} :
    obeying broken c = .good a ↔ c = .good a ∧ broken a = none := by
  rw [obeying, Checked.andThen_eq_good]
  constructor
  · rintro ⟨b, rfl, hb⟩
    split at hb
    · exact nomatch hb
    · next hnone =>
      obtain rfl := Checked.good.inj hb
      exact ⟨rfl, hnone⟩
  · rintro ⟨rfl, ha⟩
    exact ⟨a, rfl, by rw [ha]⟩

theorem obeying_good {broken : α → Option String} {a : α} (h : broken a = none) :
    obeying broken (.good a) = .good a :=
  obeying_eq_good.mpr ⟨rfl, h⟩

/-- A field is read, or its fallback stands. -/
theorem Record.given_eq_good {r : Record} {name : String} {read : Datum → Checked α} {fallback a : α}
    (h : r.given name read fallback = .good a) : a = fallback ∨ ∃ d, read d = .good a := by
  unfold Record.given at h
  split at h
  · next key d _ => exact .inr ⟨d, Checked.under_eq_good.mp h⟩
  · exact .inl (Checked.good.inj h).symm

/-- What holds of the fallback, and of all that is read, holds of a field. -/
theorem Record.of_given {P : α → Prop} {r : Record} {name : String} {read : Datum → Checked α} {fallback a : α}
    (hfallback : P fallback) (hread : ∀ d a, read d = .good a → P a) (h : r.given name read fallback = .good a) :
    P a := by
  rcases given_eq_good h with rfl | ⟨d, hd⟩
  · exact hfallback
  · exact hread d a hd

theorem nullable_eq_good {read : Datum → Checked α} {d : Datum} {a : α}
    (h : nullable read d = .good (some a)) : read d = .good a := by
  unfold nullable at h
  split at h
  · exact nomatch h
  · obtain ⟨b, hb, heq⟩ := Checked.map_eq_good.mp h
    rw [hb, Option.some.inj heq]

/-- What holds of all that is read holds of a field that may be missing. -/
theorem Record.of_optional {P : α → Prop} {r : Record} {name : String} {read : Datum → Checked α} {o : Option α}
    (hread : ∀ d a, read d = .good a → P a) (h : r.optional name read = .good o) : ∀ a ∈ o, P a := by
  rintro a rfl
  rcases given_eq_good h with hnone | ⟨d, hd⟩
  · exact nomatch hnone
  · exact hread d a (nullable_eq_good hd)

/-- A field that has to be there is read from an entry. -/
theorem Record.required_eq_good {r : Record} {name : String} {read : Datum → Checked α} {a : α}
    (h : r.required name read = .good a) : ∃ e ∈ r.entries, read e.2 = .good a := by
  have hfield {key : String} {d : Datum} (hd : r.field? name = some (key, d)) :
      ∃ e ∈ r.entries, e.2 = d := by
    unfold field? at hd
    split at hd
    · next d' hlookup =>
        obtain ⟨-, rfl⟩ := Prod.mk.inj (Option.some.inj hd)
        exact ⟨_, Datum.mem_of_lookup hlookup, rfl⟩
    · obtain ⟨d', hlookup, heq⟩ := Option.map_eq_some_iff.mp hd
      obtain ⟨-, rfl⟩ := Prod.mk.inj heq
      exact ⟨_, Datum.mem_of_lookup hlookup, rfl⟩
  unfold required at h
  split at h
  · next key d hd =>
      obtain ⟨e, he, rfl⟩ := hfield hd
      exact ⟨e, he, Checked.under_eq_good.mp h⟩
  · simp at h

/-- A whole number that is read from a bound on is the number itself. -/
theorem wholeFrom_eq_good {least n : Nat} {d : Datum} (h : wholeFrom least d = .good n) :
    least ≤ n ∧ whole d = .good (n : Int) := by
  obtain ⟨m, hwhole, hm⟩ := Checked.andThen_eq_good.mp h
  split at hm
  · simp [Checked.complain] at hm
  · have hn := Checked.good.inj hm
    rw [hwhole, ← hn, Int.toNat_of_nonneg (by omega)]
    exact ⟨by omega, rfl⟩

end Readings

open Json

variable {α : Type} {k : Nat}

/-! ## Fields -/

/-- The names of the fields differ in the spelling with capitals inside. -/
def DistinctNames (fields : List (String × Datum)) : Prop := ((fields.map Prod.fst).map camel).Nodup

section Fields

variable {fields : List (String × Datum)}

theorem DistinctNames.keys (h : DistinctNames fields) :
    ((fields.map fun (name, d) => (Spelling.camel.of name, d)).map Prod.fst).Nodup := by
  unfold DistinctNames at h
  rwa [List.map_map] at h ⊢

theorem field?_written (h : DistinctNames fields) {e : String × Datum} (he : e ∈ fields) :
    Record.field? ⟨fields.map fun (name, d) => (Spelling.camel.of name, d), true⟩ e.1 =
      some (camel e.1, e.2) := by
  have hlookup : Datum.lookup (camel e.1) (fields.map fun (name, d) => (Spelling.camel.of name, d)) =
      some e.2 := Datum.lookup_of_mem h.keys (List.mem_map.mpr ⟨e, he, rfl⟩)
  simp only [Record.field?, Record.spelling, if_true, hlookup]

/-- A field is found under its own name if its other spelling stands for nothing. -/
theorem Record.field?_of_name {r : Record} {name : String}
    (h : r.spelling name = name ∨ r.spelling name ∉ Entries.keys r.entries) :
    r.field? name = (Datum.lookup name r.entries).map fun d => (name, d) := by
  unfold field?
  split
  · next d hd =>
    have hname : r.spelling name = name :=
      h.resolve_right fun hfree => hfree (Entries.mem_keys_of_mem (Datum.mem_of_lookup hd))
    rw [hname] at hd ⊢
    rw [hd]
    rfl
  · rfl

/-- No key is unexpected if all are names of fields. -/
theorem Record.closed_eq_good {r : Record} {names : List String}
    (h : ∀ key ∈ Entries.keys r.entries, key ∈ r.used names) : r.closed names = .good () := by
  have hnone : (r.entries.filter fun (key, _) => !(r.used names).contains key) = [] := by
    rw [List.filter_eq_nil_iff]
    intro e he
    simp [h e.1 (Entries.mem_keys_of_mem he)]
  rw [closed, hnone]

/-! ## What comes back -/

/-- The document conveys the value: it is plain, and the value is read from it. -/
structure Conveys (k : Nat) (read : Datum → Checked α) (d : Datum) (a : α) : Prop where
  plain : Plain k d
  read : read d = .good a

/-- **A written record conveys its value** if its fields are plain and the value is read from every record
in which they are found. -/
theorem conveys_written {title : String} {read : Record → Checked α} {a : α} (hnames : DistinctNames fields)
    (hplain : ∀ e ∈ fields, Plain k e.2)
    (hread : ∀ r : Record, (∀ e ∈ fields, r.field? e.1 = some (camel e.1, e.2)) → read r = .good a) :
    Conveys (k + 1) (aliasedRecord title read) (written .camel fields) a where
  plain := by
    refine .table hnames.keys fun e he => ?_
    obtain ⟨field, hfield, rfl⟩ := List.mem_map.mp he
    exact hplain field hfield
  read := hread _ fun _ he => field?_written hnames he

end Fields

theorem conveys_text (s : String) : Conveys k text (.text s) s := ⟨.text s, rfl⟩

theorem conveys_wholeFrom {least : Nat} {n : Int} (h : (least : Int) ≤ n) :
    Conveys k (wholeFrom least) (.int n) n.toNat := by
  refine ⟨.int n, ?_⟩
  rw [wholeFrom, whole, Checked.andThen, if_neg (Int.not_lt.mpr h)]

theorem conveys_nat {least n : Nat} (h : least ≤ n) : Conveys k (wholeFrom least) (writtenNat n) n :=
  conveys_wholeFrom (Int.ofNat_le.mpr h)

theorem conveys_writtenNat (n : Nat) : Conveys k (wholeFrom 0) (writtenNat n) n := conveys_nat n.zero_le

theorem conveys_wholeWithin {least most n : Nat} (hleast : least ≤ n) (hmost : n ≤ most) :
    Conveys k (wholeWithin least most) (writtenNat n) n := by
  obtain ⟨hplain, hread⟩ := conveys_nat (k := k) hleast
  refine ⟨hplain, ?_⟩
  rw [wholeWithin, hread, Checked.andThen, if_neg (Nat.not_lt.mpr hmost)]

theorem conveys_writtenMember [Vocabulary α] {a : α}
    (h : Vocabulary.ofName? (Vocabulary.name a) = some a) : Conveys k member (writtenMember a) a := by
  refine ⟨.text _, ?_⟩
  simp [member, writtenMember, h]

/-- A value that may be missing is conveyed if the value itself is, unless it is written like a missing
one. -/
theorem conveys_getD {read : Datum → Checked α} {write : α → Datum} {o : Option α}
    (hnull : ∀ a ∈ o, write a ≠ .null) (h : ∀ a ∈ o, Conveys k read (write a) a) :
    Conveys k (nullable read) ((o.map write).getD .null) o := by
  cases o with
  | none => exact ⟨.null, rfl⟩
  | some a =>
      obtain ⟨hplain, hread⟩ := h a rfl
      refine ⟨hplain, ?_⟩
      rw [Option.map_some, Option.getD_some]
      unfold nullable
      split
      · next heq => exact absurd heq (hnull a rfl)
      · rw [hread]
        rfl

theorem conveys_writtenText (s : Option String) : Conveys k (nullable text) (writtenText s) s :=
  conveys_getD (fun _ _ => by simp) fun s _ => conveys_text s

/-- A list is conveyed if its items are. -/
theorem conveys_list {read : Datum → Checked α} {write : α → Datum} {items : List α}
    (h : ∀ a ∈ items, Conveys k read (write a) a) :
    Conveys (k + 1) (tupleOf read) (.list (items.map write)) items where
  plain := by
    refine .list fun d hd => ?_
    obtain ⟨a, ha, rfl⟩ := List.mem_map.mp hd
    exact (h a ha).plain
  read := by
    have hfrom (n : Nat) : itemsFrom read n (items.map write) = .good items := by
      induction items generalizing n with
      | nil => rfl
      | cons a rest ih =>
          obtain ⟨ha, hrest⟩ := List.forall_mem_cons.mp h
          rw [List.map_cons, itemsFrom, ha.read, ih hrest]
          rfl
    exact hfrom 0

theorem conveys_writtenTexts (texts : List String) :
    Conveys (k + 1) (tupleOf text) (writtenTexts texts) texts :=
  conveys_list fun s _ => conveys_text s

/-- A table is read entry by entry. -/
theorem tableOf_written {read : Datum → Checked α} {write : α → Datum} {entries : List (String × α)}
    (h : ∀ e ∈ entries, read (write e.2) = .good e.2) :
    tableOf read (.table (entries.map fun (key, a) => (key, write a))) = .good entries := by
  rw [tableOf, List.map_map]
  induction entries with
  | nil => rfl
  | cons e rest ih =>
      obtain ⟨he, hrest⟩ := List.forall_mem_cons.mp h
      rw [List.map_cons, Checked.all, ih hrest]
      show ((((read (write e.2)).under (.key e.1)).map fun a => (e.1, a)).map List.cons).apply _ = _
      rw [he]
      rfl

/-- Counts are conveyed if no name stands twice. -/
theorem conveys_writtenCounts {counts : List (String × Int)} (h : (counts.map Prod.fst).Nodup) :
    Conveys (k + 1) (tableOf whole) (writtenCounts counts) counts where
  plain := by
    refine .table ?_ fun e he => ?_
    · rwa [List.map_map]
    · obtain ⟨count, -, rfl⟩ := List.mem_map.mp he
      exact .int _
  read := tableOf_written fun _ _ => rfl

/-! ## Whole numbers that are read -/

theorem plainWhole_lt {cs : List Char} {n : Int} (h : plainWhole cs = .good n) :
    n.natAbs < 10 ^ Decimal.maxWholeDigits := by
  unfold plainWhole at h
  dsimp only at h
  split_ifs at h with hbad hlong hnegative
  · simp [Checked.complain] at h
  · simp [Checked.complain] at h
  all_goals
    simp only [Bool.or_eq_true, Bool.not_eq_true', not_or, Bool.not_eq_false] at hbad
    have hlt := Decimal.natOf_lt (List.all_eq_true.mp hbad.1.2)
    have hpow := Nat.pow_le_pow_right (n := 10) (by decide) (Nat.not_lt.mp hlong)
    have hn := Checked.good.inj h
    omega

/-- A whole number that is read from a value that fits has no more digits than are read. -/
theorem whole_lt {d : Datum} {n : Int} (hfits : d.Fits) (h : whole d = .good n) :
    n.natAbs < 10 ^ Decimal.maxWholeDigits := by
  have hword : Nat.pow 2 63 < 10 ^ Decimal.maxWholeDigits := by decide +kernel
  cases d with
  | int m =>
      obtain rfl := Checked.good.inj h
      exact Datum.fits_int.mp hfits
  | bool b =>
      have hn := Checked.good.inj h
      have hle : n.natAbs ≤ 1 := by split at hn <;> omega
      exact Nat.lt_of_le_of_lt hle (by decide +kernel)
  | float x =>
      unfold whole wholeOfFloat at h
      dsimp only at h
      split at h
      · split_ifs at h with hfraction hsmall
        · simp [Checked.complain] at h
        · obtain rfl := Checked.good.inj h
          omega
        · simp [Checked.complain] at h
      · simp [Checked.complain] at h
  | text s =>
      unfold whole wholeOfText at h
      dsimp only at h
      split at h
      · exact plainWhole_lt h
      · simp [Checked.complain] at h
  | _ => simp [whole, Checked.complain] at h

end Assay.Schema

import Assay.Proofs.Datum
import Assay.Proofs.PropertyList

/-!
# Property lists that spell out values

A value of texts, whole numbers, truth values, lists and tables is spelled out by elements (`Spells`), and
every such value is (`IsPlain.exists_spells`). What is read from the elements is the value again, unless a
whole number in it has more digits than are read; then nothing is (`value_of_spells`, `fits_of_spells`). The
main result is `decode_spec`.
-/

namespace Assay.PropertyList

open Markup (Element)

/-- The value of a key in a table, and the element that spells it out. -/
structure Entry where
  key : String
  element : Element
  value : Datum

namespace Entry

/-- The entry as it stands in the element of a table. -/
def elements (e : Entry) : List Element := [.node "key" (some e.key) [], e.element]

/-- The entry as it stands in the table. -/
def binding (e : Entry) : String × Datum := (e.key, e.value)

end Entry

/-- The elements that spell out values and take up at most `k` levels. What is written between the elements of
a list or a table is free, and an empty text may be missing. -/
inductive Spells : (k : Nat) → Element → Datum → Prop
  | text {k : Nat} (s : Option String) : Spells (k + 1) (.node "string" s []) (.text (s.getD ""))
  | whole {k : Nat} (n : Int) : Spells (k + 1) (.node "integer" (some (Decimal.intText n)) []) (.int n)
  | true {k : Nat} (blank : Option String) : Spells (k + 1) (.node "true" blank []) (.bool true)
  | false {k : Nat} (blank : Option String) : Spells (k + 1) (.node "false" blank []) (.bool false)
  | list {k : Nat} (blank : Option String) {items : List (Element × Datum)}
      (hitems : ∀ i ∈ items, Spells k i.1 i.2) :
      Spells (k + 2) (.node "array" blank (items.map Prod.fst)) (.list (items.map Prod.snd))
  | table {k : Nat} (blank : Option String) {entries : List Entry} (hkeys : (entries.map Entry.key).Nodup)
      (hne : ∀ e ∈ entries, e.key ≠ "") (hentries : ∀ e ∈ entries, Spells k e.element e.value) :
      Spells (k + 1) (.node "dict" blank (entries.flatMap Entry.elements)) (.table (entries.map Entry.binding))

/-- The element spells out the value, also in the frame of a document. -/
inductive IsDocument : (k : Nat) → Element → Datum → Prop
  | plain {k : Nat} {e : Element} {v : Datum} (h : Spells k e v) : IsDocument k e v
  | framed {k : Nat} {e : Element} {v : Datum} (blank : Option String) (h : Spells k e v) :
      IsDocument (k + 1) (.node "plist" blank [e]) v

/-- The values that can be spelled out in `k` levels. -/
inductive IsPlain : (k : Nat) → Datum → Prop
  | text {k : Nat} (s : String) : IsPlain (k + 1) (.text s)
  | whole {k : Nat} (n : Int) : IsPlain (k + 1) (.int n)
  | truth {k : Nat} (b : Bool) : IsPlain (k + 1) (.bool b)
  | list {k : Nat} {items : List Datum} (hitems : ∀ d ∈ items, IsPlain k d) : IsPlain (k + 2) (.list items)
  | table {k : Nat} {entries : List (String × Datum)} (hkeys : (entries.map Prod.fst).Nodup)
      (hne : ∀ e ∈ entries, e.1 ≠ "") (hentries : ∀ e ∈ entries, IsPlain k e.2) :
      IsPlain (k + 1) (.table entries)

variable {k : Nat} {e : Element} {v : Datum}

/-! ## Every value is spelled out -/

theorem IsPlain.exists_spells (h : IsPlain k v) : ∃ e, Spells k e v := by
  induction h with
  | text s => exact ⟨_, .text (some s)⟩
  | whole n => exact ⟨_, .whole n⟩
  | truth b =>
      cases b with
      | false => exact ⟨_, .false none⟩
      | true => exact ⟨_, .true none⟩
  | @list k items _ ih =>
      -- the spelling of each item, paired with the item that it spells out
      choose! spelled hspelled using ih
      have hitems : ∀ i ∈ items.map fun d => (spelled d, d), Spells k i.1 i.2 :=
        List.forall_mem_map.mpr hspelled
      have hvalues : (items.map fun d => (spelled d, d)).map Prod.snd = items := by
        rw [List.map_map]
        exact List.map_id' items
      have hlist := Spells.list none hitems
      rw [hvalues] at hlist
      exact ⟨_, hlist⟩
  | @table k entries hkeys hne _ ih =>
      choose! spelled hspelled using ih
      let spell (e : String × Datum) : Entry := ⟨e.1, spelled e, e.2⟩
      have hentries : ∀ e ∈ entries.map spell, Spells k e.element e.value := List.forall_mem_map.mpr hspelled
      have hkeys : ((entries.map spell).map Entry.key).Nodup := by rwa [List.map_map]
      have hvalues : (entries.map spell).map Entry.binding = entries := by
        rw [List.map_map]
        exact List.map_id' entries
      have htable := Spells.table none hkeys (List.forall_mem_map.mpr hne) hentries
      rw [hvalues] at htable
      exact ⟨_, htable⟩

/-! ## What is read from the elements -/

theorem keyed_elements (entries : List Entry) :
    keyed (entries.flatMap Entry.elements) = entries.map fun e => (e.key, e.element) := by
  induction entries with
  | nil => rfl
  | cons entry entries ih =>
      rw [List.flatMap_cons, List.map_cons, ← ih]
      rfl

theorem value_of_spells (h : Spells k e v) (hfits : v.Fits) : value k e = .ok v := by
  induction h with
  | text s => rfl
  | whole n =>
      have hwhole := Readers.wholeOfText_intText n
      rw [if_pos (Datum.fits_int.mp hfits)] at hwhole
      show wholeOf _ = _
      rw [wholeOf, Element.text, Readers.wholeOfText?, hwhole]
  | true blank => rfl
  | false blank => rfl
  | @list k blank items _ ih =>
      have hfits := Datum.fits_list.mp hfits
      have hvalues : PropertyList.values (k + 1) (items.map Prod.fst) = .ok (items.map Prod.snd) := by
        rw [PropertyList.values, List.mapM_map]
        apply mapM_eq_ok_map
        intro i hi
        exact ih i hi (hfits i.2 (List.mem_map_of_mem hi))
      rw [value_array rfl, Element.children, hvalues]
      rfl
  | @table k blank entries hkeys _ _ ih =>
      have hfits := Datum.fits_table.mp hfits
      have hvalues : entriesWith (value k) (keyed (entries.flatMap Entry.elements)) =
          .ok (entries.map Entry.binding) := by
        rw [keyed_elements, entriesWith_eq_mapM, List.mapM_map]
        apply mapM_eq_ok_map
        intro entry hentry
        have hvalue := ih entry hentry (hfits entry.binding (List.mem_map_of_mem hentry))
        show (value k entry.element).map (entry.key, ·) = _
        rw [hvalue]
        rfl
      rw [value_dict rfl, Element.children, hvalues]
      show Except.ok (Datum.ofEntries _) = _
      rw [Datum.ofEntries_of_nodup (by rwa [List.map_map])]

/-- If anything is read from the elements, no whole number in the value is too long. -/
theorem fits_of_spells (h : Spells k e v) (hread : ∃ w, value k e = .ok w) : v.Fits := by
  induction h with
  | text s => exact Datum.fits_of_no_wholes rfl
  | whole n =>
      rw [Datum.fits_int]
      -- a number that is too long is refused when its text is read
      by_contra hlong
      have hwhole := Readers.wholeOfText_intText n
      rw [if_neg hlong] at hwhole
      obtain ⟨w, hw⟩ := hread
      have hw : wholeOf _ = _ := hw
      rw [wholeOf, Element.text, Readers.wholeOfText?, hwhole] at hw
      cases hw
  | true blank => exact Datum.fits_of_no_wholes rfl
  | false blank => exact Datum.fits_of_no_wholes rfl
  | @list k blank items _ ih =>
      rw [value_array rfl, Element.children, map_isOk, PropertyList.values, mapM_isOk,
        List.forall_mem_map] at hread
      rw [Datum.fits_list, List.forall_mem_map]
      intro i hi
      exact ih i hi (hread i hi)
  | @table k blank entries _ _ _ ih =>
      rw [value_dict rfl, Element.children, map_isOk, entriesWith_eq_mapM, mapM_isOk, keyed_elements,
        List.forall_mem_map] at hread
      rw [Datum.fits_table, List.forall_mem_map]
      intro entry hentry
      exact ih entry hentry (map_isOk.mp (hread entry hentry))

theorem value_eq_ok_of_isDocument (h : IsDocument k e v) : value k e = .ok v ↔ v.Fits := by
  have hplain {k : Nat} {e : Element} (h : Spells k e v) : value k e = .ok v ↔ v.Fits :=
    ⟨fun hread => fits_of_spells h ⟨v, hread⟩, value_of_spells h⟩
  cases h with
  | plain h => exact hplain h
  | framed blank h =>
      rw [value_plist rfl rfl]
      exact hplain h

/-- **A value is read from the elements that spell it out**, unless a whole number in it has more digits than
are read. -/
theorem decode_spec (v : Datum) :
    (∀ k, IsPlain k v → ∃ e, IsDocument k e v) ∧
      (∀ k e, IsDocument k e v → (value k e = .ok v ↔ v.Fits)) ∧
      ∀ e, IsDocument maxDepth e v → (decode e = .ok v ↔ v.Fits) := by
  refine ⟨fun k h => ?_, fun k e => value_eq_ok_of_isDocument, fun e => value_eq_ok_of_isDocument⟩
  obtain ⟨e, he⟩ := h.exists_spells
  exact ⟨e, .plain he⟩

/-- A whole number with one digit more than are read. -/
def endless : Int := (10 ^ Decimal.maxWholeDigits : Nat)

/-- An element that spells out `endless`. -/
def endlessElement : Element := .node "integer" (some (Decimal.intText endless)) []

/-- A whole number can be too long to be read from the element that spells it out. -/
theorem decode_endless :
    IsDocument maxDepth endlessElement (.int endless) ∧ decode endlessElement ≠ .ok (.int endless) := by
  have hspelled : IsDocument maxDepth endlessElement (.int endless) := .plain (.whole endless)
  refine ⟨hspelled, fun hread => ?_⟩
  have hfits := Datum.fits_int.mp ((value_eq_ok_of_isDocument hspelled).mp hread)
  rw [endless, Int.natAbs_natCast] at hfits
  exact absurd hfits (Nat.lt_irrefl _)

end Assay.PropertyList

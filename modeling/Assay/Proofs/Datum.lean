import Assay.Datum.Number
import Assay.Datum.Written
import Assay.Proofs.Entries
import Mathlib.Algebra.Ring.Nat

/-!
# Values and their parts

A value *fits* if every whole number in it has at most as many digits as are read (`Datum.Fits`). It is
enough to look at the parts of a value (`fits_list`, `fits_table`), also when a table is made from entries
of which the last one of a key counts (`fits_ofEntries`). Exactly the values that fit can be written out
(`isWritable_iff`). A table in which every key stands once is what its entries say (`lookup_of_mem`,
`ofEntries_of_nodup`).
-/

namespace Assay

theorem Decimal.isWritable_iff {n : Int} : isWritable n = true ↔ n.natAbs < 10 ^ maxWholeDigits := by
  rw [isWritable, decide_eq_true_iff, Nat.pow_eq]

namespace Datum

/-! ## All whole numbers -/

mutual

/-- All whole numbers in a value. -/
def wholes : Datum → List Int
  | .int n => [n]
  | .list items => wholesOfItems items
  | .table entries => wholesOfEntries entries
  | _ => []

/-- All whole numbers in the items of a list. -/
def wholesOfItems : List Datum → List Int
  | [] => []
  | d :: rest => d.wholes ++ wholesOfItems rest

/-- All whole numbers in the entries of a table. -/
def wholesOfEntries : List (String × Datum) → List Int
  | [] => []
  | (_, d) :: rest => d.wholes ++ wholesOfEntries rest

end

theorem wholes_list (items : List Datum) : (Datum.list items).wholes = items.flatMap wholes := by
  rw [wholes]
  induction items with
  | nil => rfl
  | cons d rest ih => rw [wholesOfItems, ih, List.flatMap_cons]

theorem wholes_table (entries : List (String × Datum)) :
    (Datum.table entries).wholes = entries.flatMap fun e => e.2.wholes := by
  rw [wholes]
  induction entries with
  | nil => rfl
  | cons e rest ih => rw [wholesOfEntries, ih, List.flatMap_cons]

/-- No whole number in the value has more digits than are read. -/
def Fits (d : Datum) : Prop := ∀ n ∈ d.wholes, n.natAbs < 10 ^ Decimal.maxWholeDigits

instance (d : Datum) : Decidable d.Fits := inferInstanceAs (Decidable (∀ n ∈ d.wholes, _))

/-- A value without whole numbers fits. -/
theorem fits_of_no_wholes {d : Datum} (h : d.wholes = []) : d.Fits := by simp [Fits, h]

theorem fits_int {n : Int} : (Datum.int n).Fits ↔ n.natAbs < 10 ^ Decimal.maxWholeDigits := by
  simp [Fits, wholes]

theorem fits_list {items : List Datum} : (Datum.list items).Fits ↔ ∀ d ∈ items, d.Fits := by
  simp only [Fits, wholes_list, List.mem_flatMap]
  exact ⟨fun h d hd n hn => h n ⟨d, hd, hn⟩, fun h n ⟨d, hd, hn⟩ => h d hd n hn⟩

theorem fits_table {entries : List (String × Datum)} :
    (Datum.table entries).Fits ↔ ∀ e ∈ entries, e.2.Fits := by
  simp only [Fits, wholes_table, List.mem_flatMap]
  exact ⟨fun h e he n hn => h n ⟨e, he, hn⟩, fun h n ⟨e, he, hn⟩ => h e he n hn⟩

/-! ## Writing values out -/

mutual

/-- A value can be written out exactly if it fits. -/
theorem isWritable_iff : (d : Datum) → (d.isWritable = true ↔ d.Fits)
  | .null | .bool _ | .float _ | .text _ | .moment _ => by
      simp only [isWritable, true_iff]
      exact fits_of_no_wholes rfl
  | .int n => by rw [isWritable, fits_int, Decimal.isWritable_iff]
  | .list items => by rw [isWritable, fits_list, areWritable_iff]
  | .table entries => by rw [isWritable, fits_table, areWritableEntries_iff]

theorem areWritable_iff : (items : List Datum) → (areWritable items = true ↔ ∀ d ∈ items, d.Fits)
  | [] => by simp [areWritable]
  | d :: rest => by
      rw [areWritable, Bool.and_eq_true, List.forall_mem_cons, isWritable_iff d, areWritable_iff rest]

theorem areWritableEntries_iff : (entries : List (String × Datum)) →
    (areWritableEntries entries = true ↔ ∀ e ∈ entries, e.2.Fits)
  | [] => by simp [areWritableEntries]
  | (k, d) :: rest => by
      rw [areWritableEntries, Bool.and_eq_true, List.forall_mem_cons, isWritable_iff d,
        areWritableEntries_iff rest]

end

theorem written_of_fits {d : Datum} (h : d.Fits) : d.written = .ok d.shown := if_pos (isWritable_iff d |>.mpr h)

theorem written_of_not_fits {d : Datum} (h : ¬ d.Fits) : d.written = .error Decimal.overlong :=
  if_neg fun hw => h ((isWritable_iff d).mp hw)

theorem told_of_fits {d : Datum} (h : d.Fits) : d.told = .ok d.display := if_pos (isWritable_iff d |>.mpr h)

theorem told_of_not_fits {d : Datum} (h : ¬ d.Fits) : d.told = .error Decimal.overlong :=
  if_neg fun hw => h ((isWritable_iff d).mp hw)

/-! ## Values of keys -/

theorem lookup_of_mem {key : String} {d : Datum} {entries : List (String × Datum)}
    (hkeys : (entries.map Prod.fst).Nodup) (h : (key, d) ∈ entries) :
    lookup key entries = some d :=
  (Entries.get?_eq_some hkeys).mpr h

theorem mem_of_lookup {key : String} {d : Datum} {entries : List (String × Datum)}
    (h : lookup key entries = some d) : (key, d) ∈ entries :=
  Entries.mem_of_get? h

theorem lookup_cons (key : String) (e : String × Datum) (entries : List (String × Datum)) :
    lookup key (e :: entries) = if e.1 = key then some e.2 else lookup key entries :=
  Entries.get?_cons key e entries

theorem lookup_append (key : String) (entries others : List (String × Datum)) :
    lookup key (entries ++ others) = (lookup key entries).or (lookup key others) :=
  Entries.get?_append key entries others

theorem lookup_filter (key : String) (keep : String → Bool) (entries : List (String × Datum)) :
    lookup key (entries.filter fun e => keep e.1) = if keep key then lookup key entries else none := by
  induction entries with
  | nil => exact (ite_self none).symm
  | cons e entries ih =>
      by_cases hkey : e.1 = key
      · subst hkey
        cases hkeep : keep e.1 <;> simp [lookup_cons, hkeep, ih]
      · cases hkeep : keep e.1 <;> simp [lookup_cons, hkeep, hkey, ih]

theorem lookup_of_not_mem {key : String} {entries : List (String × Datum)}
    (h : key ∉ entries.map Prod.fst) : lookup key entries = none :=
  Entries.get?_eq_none.mpr h

/-! ## Tables from entries -/

theorem mem_insert {key : String} {value : Datum} {e : String × Datum}
    {entries : List (String × Datum)} (h : e ∈ insert key value entries) :
    e = (key, value) ∨ e ∈ entries := by
  induction entries with
  | nil => exact .inl (List.mem_singleton.mp h)
  | cons first rest ih =>
      unfold insert at h
      split at h
      · next heq =>
          rcases List.mem_cons.mp h with rfl | h
          · exact .inl (by rw [eq_of_beq heq])
          · exact .inr (List.mem_cons_of_mem _ h)
      · rcases List.mem_cons.mp h with rfl | h
        · exact .inr List.mem_cons_self
        · exact (ih h).imp_right (List.mem_cons_of_mem _)

theorem ofEntries_eq_foldl (entries : List (String × Datum)) :
    ofEntries entries = .table (entries.foldl (fun acc e => insert e.1 e.2 acc) []) := rfl

theorem fits_ofEntries {entries : List (String × Datum)} (h : ∀ e ∈ entries, e.2.Fits) :
    (ofEntries entries).Fits := by
  have hfrom (done : List (String × Datum)) (hdone : ∀ e ∈ done, e.2.Fits) :
      ∀ e ∈ entries.foldl (fun acc e => insert e.1 e.2 acc) done, e.2.Fits := by
    induction entries generalizing done with
    | nil => exact hdone
    | cons first rest ih =>
        obtain ⟨hfirst, hrest⟩ := List.forall_mem_cons.mp h
        refine ih hrest _ fun e he => ?_
        rcases mem_insert he with rfl | he
        · exact hfirst
        · exact hdone e he
  rw [ofEntries_eq_foldl]
  exact fits_table.mpr (hfrom [] (by simp))

theorem insert_of_not_mem {key : String} {value : Datum} {entries : List (String × Datum)}
    (h : key ∉ entries.map Prod.fst) : insert key value entries = entries ++ [(key, value)] := by
  induction entries with
  | nil => rfl
  | cons e entries ih =>
      rw [List.map_cons, List.mem_cons, not_or] at h
      have hne : (e.1 == key) = false := beq_eq_false_iff_ne.mpr (Ne.symm h.1)
      simp only [insert, hne, ih h.2]
      rfl

/-- Entries whose keys differ make up a table as they are. -/
theorem ofEntries_of_nodup {entries : List (String × Datum)} (h : (entries.map Prod.fst).Nodup) :
    ofEntries entries = .table entries := by
  -- generalised to the entries that have been inserted before, which no later key may repeat
  have hfrom (done : List (String × Datum)) (hnodup : ((done ++ entries).map Prod.fst).Nodup) :
      entries.foldl (fun acc e => insert e.1 e.2 acc) done = done ++ entries := by
    clear h
    induction entries generalizing done with
    | nil => simp
    | cons e entries ih =>
        have hnew : e.1 ∉ done.map Prod.fst := by
          rw [List.map_append, List.nodup_append] at hnodup
          intro hmem
          exact hnodup.2.2 _ hmem _ (by simp) rfl
        rw [List.foldl_cons, insert_of_not_mem hnew, ih _ (by simpa using hnodup)]
        simp
  rw [ofEntries_eq_foldl, hfrom [] (by simpa using h), List.nil_append]

theorem insert_eq_alter (key : String) (value : Datum) (entries : List (String × Datum)) :
    insert key value entries = Entries.alter key (fun _ => value) entries := by
  induction entries with
  | nil => rfl
  | cons e entries ih => rw [insert, Entries.alter, ih]

/-- Of the entries of a table the last one of a key counts. -/
theorem get?_ofEntries (key : String) (entries : List (String × Datum)) :
    (ofEntries entries).get? key = lookup key entries.reverse := by
  have hset : ofEntries entries = .table (Entries.setAll [] entries) := by
    rw [ofEntries_eq_foldl]
    simp only [insert_eq_alter]
    rfl
  rw [hset]
  exact (Entries.get?_setAll key [] entries).trans Option.or_none

end Datum

/-! ## Numbers -/

namespace Number

theorem less_whole (m n : Int) : (whole m).less (.whole n) = decide (m < n) := by
  show (some (compare m n) == some .lt) = _
  rw [Option.some_beq_some, Bool.eq_iff_iff, beq_iff_eq, decide_eq_true_iff]
  exact Int.compare_eq_lt

theorem atMost_whole (m n : Int) : (whole m).atMost (.whole n) = decide (m ≤ n) := by
  show (some (compare m n)).any Ordering.isLE = _
  rw [Option.any_some, Bool.eq_iff_iff, decide_eq_true_iff]
  exact Int.isLE_compare

end Number

end Assay

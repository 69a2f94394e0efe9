import Mathlib.Data.List.Nodup

/-!
# Entries under keys

A row of entries holds a value under a key if its first entry of that key does. Changing the value of a
key changes no other one and keeps the order of the keys; a new key comes last (`get?_alter`,
`keys_alter`). In a row whose keys are distinct, an entry is what its key leads to (`get?_eq_some`).
-/

namespace Assay.Entries

variable {α : Type} {key : String} {value : α} {entries others : List (String × α)}

/-- The keys of a row, in order. -/
def keys (entries : List (String × α)) : List String := entries.map Prod.fst

/-- The value of a key. -/
def get? (key : String) (entries : List (String × α)) : Option α :=
  (entries.find? fun e => e.1 == key).map (·.2)

/-- The row with the value of a key changed; the key comes last if it is new. -/
def alter (key : String) (f : Option α → α) : List (String × α) → List (String × α)
  | [] => [(key, f none)]
  | (k, value) :: rest => if k == key then (k, f (some value)) :: rest else (k, value) :: alter key f rest

/-- The row with several values set, one after another. -/
def setAll (entries later : List (String × α)) : List (String × α) :=
  later.foldl (fun done e => alter e.1 (fun _ => e.2) done) entries

/-! ## Looking up -/

theorem get?_cons (key : String) (e : String × α) (entries : List (String × α)) :
    get? key (e :: entries) = if e.1 = key then some e.2 else get? key entries := by
  by_cases h : e.1 = key
  · simp [get?, h]
  · simp [get?, h]

theorem get?_append (key : String) (entries others : List (String × α)) :
    get? key (entries ++ others) = (get? key entries).or (get? key others) := by
  rw [get?, get?, get?, List.find?_append, Option.map_or]

theorem mem_of_get? (h : get? key entries = some value) : (key, value) ∈ entries := by
  obtain ⟨e, he, rfl⟩ := Option.map_eq_some_iff.mp h
  have hkey := List.find?_some he
  obtain rfl : e.1 = key := eq_of_beq hkey
  exact List.mem_of_find?_eq_some he

theorem mem_keys_of_mem {e : String × α} (h : e ∈ entries) : e.1 ∈ keys entries :=
  List.mem_map.mpr ⟨e, h, rfl⟩

theorem keys_reverse (entries : List (String × α)) : keys entries.reverse = (keys entries).reverse :=
  List.map_reverse

theorem get?_isSome : (get? key entries).isSome ↔ key ∈ keys entries := by
  induction entries with
  | nil => simp [get?, keys]
  | cons e entries ih =>
      rw [get?_cons, keys, List.map_cons, List.mem_cons]
      split
      · next h => simp [h]
      · next h => exact ih.trans (or_iff_right fun heq => h heq.symm).symm

theorem get?_eq_none : get? key entries = none ↔ key ∉ keys entries := by
  rw [← get?_isSome, Option.not_isSome_iff_eq_none]

/-- Under distinct keys, an entry is what its key leads to. -/
theorem get?_eq_some (hkeys : (keys entries).Nodup) :
    get? key entries = some value ↔ (key, value) ∈ entries := by
  refine ⟨mem_of_get?, fun h => ?_⟩
  induction entries with
  | nil => exact absurd h List.not_mem_nil
  | cons e entries ih =>
      obtain ⟨hfirst, hrest⟩ := List.nodup_cons.mp hkeys
      rw [get?_cons]
      rcases List.mem_cons.mp h with rfl | h
      · exact if_pos rfl
      · have hne : e.1 ≠ key := by
          rintro rfl
          exact hfirst (List.mem_map.mpr ⟨_, h, rfl⟩)
        rw [if_neg hne]
        exact ih hrest h

/-! ## Changing a value -/

/-- A changed key has its new value, and every other one has what it had. -/
theorem get?_alter (key name : String) (f : Option α → α) (entries : List (String × α)) :
    get? key (alter name f entries) =
      if name = key then some (f (get? name entries)) else get? key entries := by
  induction entries with
  | nil => exact get?_cons key (name, f none) []
  | cons e entries ih =>
      rw [alter]
      split
      · next hname =>
        obtain rfl := eq_of_beq hname
        rw [get?_cons, get?_cons, get?_cons, if_pos rfl]
        split <;> rfl
      · next hname =>
        have hne : e.1 ≠ name := fun h => hname (beq_iff_eq.mpr h)
        rw [get?_cons, get?_cons, get?_cons, ih, if_neg hne]
        split
        · next hkey => rw [if_neg fun h => hne (hkey.trans h.symm)]
        · rfl

theorem keys_alter (name : String) (f : Option α → α) (entries : List (String × α)) :
    keys (alter name f entries) = if name ∈ keys entries then keys entries else keys entries ++ [name] := by
  induction entries with
  | nil => rfl
  | cons e entries ih =>
      rw [alter]
      split
      · next hname =>
        obtain rfl := eq_of_beq hname
        rw [if_pos (mem_keys_of_mem List.mem_cons_self)]
        rfl
      · next hname =>
        have hmem : name ∈ keys (e :: entries) ↔ name ∈ keys entries :=
          List.mem_cons.trans (or_iff_right fun h => hname (beq_iff_eq.mpr h.symm))
        rw [if_congr hmem rfl rfl]
        show e.1 :: keys (alter name f entries) = _
        rw [ih]
        split <;> rfl

theorem mem_keys_alter {name : String} {f : Option α → α} :
    key ∈ keys (alter name f entries) ↔ key = name ∨ key ∈ keys entries := by
  rw [keys_alter]
  split
  · next h => exact (or_iff_right_of_imp fun heq => heq ▸ h).symm
  · rw [List.mem_append, List.mem_singleton, or_comm]

theorem nodup_keys_alter {name : String} {f : Option α → α} (h : (keys entries).Nodup) :
    (keys (alter name f entries)).Nodup := by
  rw [keys_alter]
  split
  · exact h
  · next hname => exact List.nodup_append.mpr ⟨h, List.nodup_singleton _, by
      rintro k hk _ hsingle rfl
      exact hname (List.mem_singleton.mp hsingle ▸ hk)⟩

/-! ## Setting several values -/

/-- Of the values that are set for a key the last one counts. -/
theorem get?_setAll (key : String) (entries later : List (String × α)) :
    get? key (setAll entries later) = (get? key later.reverse).or (get? key entries) := by
  induction later generalizing entries with
  | nil => rfl
  | cons e later ih =>
      show get? key (setAll (alter e.1 (fun _ => e.2) entries) later) = _
      rw [ih, get?_alter, List.reverse_cons, get?_append, get?_cons, Option.or_assoc]
      split <;> rfl

theorem mem_keys_setAll {later : List (String × α)} :
    key ∈ keys (setAll entries later) ↔ key ∈ keys entries ∨ key ∈ keys later := by
  induction later generalizing entries with
  | nil => simp [setAll, keys]
  | cons e later ih =>
      show key ∈ keys (setAll (alter e.1 (fun _ => e.2) entries) later) ↔
        key ∈ keys entries ∨ key ∈ e.1 :: keys later
      rw [ih, mem_keys_alter, List.mem_cons, or_assoc, or_left_comm]

theorem nodup_keys_setAll {later : List (String × α)} (h : (keys entries).Nodup) :
    (keys (setAll entries later)).Nodup := by
  induction later generalizing entries with
  | nil => exact h
  | cons e later ih => exact ih (nodup_keys_alter h)

end Assay.Entries

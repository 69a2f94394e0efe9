import Assay.Proofs.Readers.Field
import Assay.PropertyList

/-!
# Property lists that can be read

The value of an element is put together from those of some of the elements in it, level by level
(`Reached`). A document has a value exactly if there is room for the levels of all of these and every text among
them that looks like a whole number is a numeral (`decode_isOk_iff`); there is no other reason for it to have
none (`value_eq_error`).
-/

namespace Assay.PropertyList

open Markup (Element)

variable {depth : Nat} {e : Element} {b : Breach}

/-! ## What a value is made of -/

/-- The elements that the value of an element is put together from. -/
def parts (e : Element) : List Element :=
  match e.tag with
  | "plist" => e.children.take 1
  | "dict" => (keyed e.children).map Prod.snd
  | "array" => e.children
  | _ => []

/-- The levels that an element takes up besides its own: a list has one for its items. -/
def extra (e : Element) : Nat := if e.tag = "array" then 1 else 0

/-- The value of the first element is made of that of the second one, which takes up the levels down to the
one that is so far below. -/
inductive Reached : Nat → Element → Element → Prop
  | here {e : Element} : Reached (extra e) e e
  | down {n : Nat} {e part c : Element} (hpart : part ∈ parts e) (h : Reached n part c) :
      Reached (n + 1 + extra e) e c

mutual

/-- How many levels an element takes up, with all that is in it. -/
def height : Element → Nat
  | .node tag text children => heights children + 1 + extra (.node tag text children)

/-- How many levels there are in a row of elements. -/
def heights : List Element → Nat
  | [] => 0
  | e :: rest => max (height e) (heights rest)

end

theorem height_le_heights {es : List Element} (h : e ∈ es) : height e ≤ heights es := by
  induction es with
  | nil => exact nomatch h
  | cons d es ih =>
      rw [heights]
      rcases List.mem_cons.mp h with rfl | h
      · exact Nat.le_max_left _ _
      · exact Nat.le_trans (ih h) (Nat.le_max_right _ _)

theorem mem_of_mem_keyed {entry : String × Element} {es : List Element} (h : entry ∈ keyed es) :
    entry.2 ∈ es := by
  fun_induction keyed es with
  | case1 key value rest name hkey hname ih =>
      rcases List.mem_cons.mp h with rfl | h
      · simp
      · exact List.mem_cons_of_mem _ (List.mem_cons_of_mem _ (ih h))
  | case2 key value rest _ ih => exact List.mem_cons_of_mem _ (List.mem_cons_of_mem _ (ih h))
  | case3 => exact nomatch h

/-- The parts of an element are among its children. -/
theorem mem_children_of_mem_parts {part : Element} (h : part ∈ parts e) : part ∈ e.children := by
  unfold parts at h
  split at h
  · exact List.mem_of_mem_take h
  · obtain ⟨entry, hentry, rfl⟩ := List.mem_map.mp h
    exact mem_of_mem_keyed hentry
  · exact h
  · exact nomatch h

/-- What a value is made of lies within the levels of elements. -/
theorem Reached.lt_height {n : Nat} {c : Element} (h : Reached n e c) : n < height e := by
  induction h with
  | @here e =>
      cases e
      rw [height]
      omega
  | @down n e part c hpart _ ih =>
      have hle := height_le_heights (mem_children_of_mem_parts hpart)
      cases e
      rw [Element.children] at hle
      rw [height]
      omega

/-- The element ought to hold a whole number, and this is the complaint about its text. -/
def Complains (e : Element) (b : Breach) : Prop :=
  e.tag = "integer" ∧ ∃ fault, Readers.wholeOfText? e.text = .error fault ∧ b = fault.breach

/-- The element holds no whole number, or a text that does not look like one, or a numeral. -/
def IsReadable (e : Element) : Prop :=
  e.tag = "integer" → ∀ s, e.text = some s → Readers.looksWhole (Text.trim s.toList) = true →
    Readers.IsNumeral (Text.trim s.toList)

theorem isReadable_iff : IsReadable e ↔ ∀ b, ¬ Complains e b := by
  unfold IsReadable Complains
  by_cases htag : e.tag = "integer"
  · simp only [htag, true_and, forall_const]
    cases htext : e.text with
    | none => simp [Readers.wholeOfText?]
    | some s =>
        simp only [Option.some.injEq, forall_eq', Readers.wholeOfText?]
        rw [← Readers.wholeOfText_isOk]
        cases h : Readers.wholeOfText s with
        | ok n => simp
        | error fault => simp
  · simp [htag]

/-! ## One level -/

theorem wholeOf_eq_error : wholeOf e = .error b ↔
    ∃ fault, Readers.wholeOfText? e.text = .error fault ∧ b = fault.breach := by
  unfold wholeOf
  split
  · next n h => simp [h]
  · next h => simp [h]
  · next fault h => simp [h, eq_comm]

theorem entriesWith_eq_mapM (item : Element → Except Breach Datum) (entries : List (String × Element)) :
    entriesWith item entries = entries.mapM fun entry => (item entry.2).map (entry.1, ·) := by
  induction entries with
  | nil => rfl
  | cons entry entries ih =>
      rw [entriesWith, List.mapM_cons, ih]
      cases item entry.2 <;> rfl

theorem value_plist (h : e.tag = "plist") {first : Element} {rest : List Element}
    (hchildren : e.children = first :: rest) : value (depth + 1) e = value depth first := by
  rw [value, h, hchildren]
  rfl

theorem value_dict (h : e.tag = "dict") :
    value (depth + 1) e = (entriesWith (value depth) (keyed e.children)).map Datum.ofEntries := by
  rw [value, h]
  rfl

theorem value_array (h : e.tag = "array") :
    value (depth + 1) e = (values depth e.children).map Datum.list := by
  rw [value, h]
  rfl

theorem extra_of_array (h : e.tag = "array") : extra e = 1 := if_pos h

theorem extra_of_ne (h : e.tag ≠ "array") : extra e = 0 := if_neg h

/-- An element has a value exactly if there is room for it, there is no complaint about it and its parts have
values. -/
theorem value_isOk : (∃ v, value (depth + 1) e = .ok v) ↔
    extra e ≤ depth ∧ (∀ b, ¬ Complains e b) ∧ ∀ part ∈ parts e, ∃ v, value (depth - extra e) part = .ok v := by
  have hquiet (h : e.tag ≠ "integer") : ∀ b, ¬ Complains e b := fun b hb => h hb.1
  by_cases harray : e.tag = "array"
  · rw [extra_of_array harray, value_array harray, map_isOk, parts, harray]
    cases depth with
    | zero => simp [values]
    | succ depth =>
        rw [values, mapM_isOk]
        simp [hquiet (by simp [harray])]
  rw [extra_of_ne harray, and_iff_right (Nat.zero_le depth), Nat.sub_zero, value, parts]
  -- one case for each tag; it is only a whole number that there can be a complaint about
  split
  · next htag =>
    rw [htag, and_iff_right (hquiet (by simp [htag]))]
    cases e.children <;> simp
  · next htag =>
    rw [htag, and_iff_right (hquiet (by simp [htag])), map_isOk, entriesWith_eq_mapM, mapM_isOk]
    simp only [List.forall_mem_map, map_isOk]
  · next htag => exact absurd htag harray
  · next htag => simp [htag, hquiet]
  · next htag =>
    rw [htag]
    cases h : wholeOf e with
    | ok v =>
        have hnone (b : Breach) : ¬ Complains e b := fun hb => by
          rw [wholeOf_eq_error.mpr hb.2] at h
          exact nomatch h
        simp [hnone]
    | error b =>
        have hsome : Complains e b := ⟨htag, wholeOf_eq_error.mp h⟩
        constructor
        · rintro ⟨v, hv⟩
          exact nomatch hv
        · rintro ⟨hnone, -⟩
          exact absurd hsome (hnone b)
  · next htag => simp [htag, hquiet]
  · next htag => simp [htag, hquiet]
  · next htag => simp [htag, hquiet]
  · next hinteger _ _ _ =>
    rw [and_iff_right (hquiet hinteger)]
    simp

/-- An element that is not too deep lacks a value for want of room for its items, or because of a complaint
about it or about a part. -/
theorem exists_of_value_eq_error (h : value (depth + 1) e = .error b) :
    (b = .tooDeep ∧ depth < extra e) ∨ Complains e b ∨
      ∃ part ∈ parts e, value (depth - extra e) part = .error b := by
  by_cases harray : e.tag = "array"
  · rw [extra_of_array harray, parts, harray]
    rw [value_array harray, map_eq_error] at h
    cases depth with
    | zero => exact .inl ⟨(Except.error.inj h).symm, Nat.zero_lt_one⟩
    | succ depth => exact .inr (.inr (exists_of_mapM_eq_error h))
  right
  rw [extra_of_ne harray, Nat.sub_zero, parts]
  rw [value] at h
  split at h
  · next htag =>
    rw [htag]
    right
    split at h
    · next first _ hchildren => exact ⟨first, by simp [hchildren], h⟩
    · exact nomatch h
  · next htag =>
    rw [htag]
    right
    rw [map_eq_error, entriesWith_eq_mapM] at h
    obtain ⟨entry, hentry, hfails⟩ := exists_of_mapM_eq_error h
    exact ⟨entry.2, List.mem_map_of_mem hentry, map_eq_error.mp hfails⟩
  · next htag => exact absurd htag harray
  · exact nomatch h
  · next htag => exact .inl ⟨htag, wholeOf_eq_error.mp h⟩
  · exact nomatch h
  · exact nomatch h
  · exact nomatch h
  · exact nomatch h

/-! ## All levels -/

/-- **An element has a value** exactly if there is room for everything that it is made of, and there is no
complaint about any of it. The induction is on the depth, which may fall by two at a list. -/
theorem value_isOk_iff : (∃ v, value depth e = .ok v) ↔
    ∀ n c, Reached n e c → n < depth ∧ ∀ b, ¬ Complains c b := by
  induction depth using Nat.strongRecOn generalizing e with
  | ind depth ih =>
      cases depth with
      | zero =>
          constructor
          · rintro ⟨v, hv⟩
            exact nomatch hv
          · intro hall
            exact absurd (hall _ e .here).1 (Nat.not_lt_zero _)
      | succ depth =>
          have hless : depth - extra e < depth + 1 := by omega
          rw [value_isOk]
          constructor
          · rintro ⟨hroom, hquiet, hparts⟩ n c hreached
            -- the element itself, or what a part of it reaches further down
            cases hreached with
            | here => exact ⟨Nat.lt_succ_of_le hroom, hquiet⟩
            | down hpart hreached =>
                obtain ⟨hdepth, hcomplains⟩ := (ih _ hless).mp (hparts _ hpart) _ _ hreached
                exact ⟨by omega, hcomplains⟩
          · intro hall
            obtain ⟨hroom, hquiet⟩ := hall _ e .here
            refine ⟨Nat.le_of_lt_succ hroom, hquiet, fun part hpart => (ih _ hless).mpr fun n c hreached => ?_⟩
            obtain ⟨hdepth, hcomplains⟩ := hall _ c (.down hpart hreached)
            exact ⟨by omega, hcomplains⟩

/-- **A document has a value** exactly if there is room for everything that it is made of and all of that is
readable. -/
theorem decode_isOk_iff : (∃ v, decode e = .ok v) ↔
    ∀ n c, Reached n e c → n < maxDepth ∧ IsReadable c := by
  simp only [isReadable_iff]
  exact value_isOk_iff

/-- **There are no other reasons for lacking a value** than depth and complaints. -/
theorem value_eq_error (h : value depth e = .error b) :
    (b = .tooDeep ∧ ∃ n c, Reached n e c ∧ depth ≤ n) ∨ ∃ n c, Reached n e c ∧ Complains c b := by
  induction depth using Nat.strongRecOn generalizing e with
  | ind depth ih =>
      cases depth with
      | zero => exact .inl ⟨(Except.error.inj h).symm, _, e, .here, Nat.zero_le _⟩
      | succ depth =>
          rcases exists_of_value_eq_error h with ⟨rfl, hroom⟩ | hown | ⟨part, hpart, hfails⟩
          · exact .inl ⟨rfl, _, e, .here, hroom⟩
          · exact .inr ⟨_, e, .here, hown⟩
          · rcases ih _ (by omega) hfails with ⟨rfl, n, c, hreached, hdepth⟩ | ⟨n, c, hreached, hcomplains⟩
            · exact .inl ⟨rfl, _, c, .down hpart hreached, by omega⟩
            · exact .inr ⟨_, c, .down hpart hreached, hcomplains⟩

end Assay.PropertyList

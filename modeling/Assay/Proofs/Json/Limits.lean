import Assay.Json.Reader
import Assay.Proofs.Datum
import Assay.Proofs.Decimal.Text
import Assay.Proofs.Outcome
import Mathlib.Data.List.TakeWhile
import Mathlib.Tactic.SplitIfs

/-!
# Limits of what is read

Whatever is read from a text, no whole number in it has more digits than the reader takes
(`fits_of_read?`).
-/

namespace Assay.Json

open Datum

/-! ## Numbers -/

theorem isAsciiDigit_of_wholeDigits? {cs ds rest : List Char} (h : wholeDigits? cs = some (ds, rest)) :
    ∀ c ∈ ds, Decimal.isAsciiDigit c = true := by
  unfold wholeDigits? at h
  split at h
  · obtain ⟨rfl, -⟩ := Prod.mk.inj (Option.some.inj h)
    simp
    decide
  · split at h
    · simp at h
    · next found _ _ =>
        have hds : ds = (spanDigits cs).1 := congrArg Prod.fst (Option.some.inj h).symm
        rw [hds]
        exact fun c hc => List.mem_takeWhile_imp hc

theorem fits_number {start cs rest : List Char} {negative : Bool} {d : Datum}
    (h : number start negative cs = .ok (d, rest)) : d.Fits := by
  unfold number at h
  split at h
  · simp at h
  · next whole tail hwhole =>
      have hlt := Decimal.natOf_lt (isAsciiDigit_of_wholeDigits? hwhole)
      dsimp only at h
      -- what is read behind the whole part only decides whether the number is a double
      split_ifs at h with hdouble hlong hnegative
      · obtain ⟨rfl, -⟩ := Prod.mk.inj (Except.ok.inj h)
        exact fits_of_no_wholes rfl
      all_goals
        have hpow := Nat.pow_le_pow_right (n := 10) (by decide) (Nat.not_lt.mp hlong)
        obtain ⟨rfl, -⟩ := Prod.mk.inj (Except.ok.inj h)
        rw [fits_int]
        omega

/-- A value that holds no other one fits. -/
theorem fits_scalar {cs rest : List Char} {d : Datum} (h : scalar cs = .ok (d, rest)) : d.Fits := by
  unfold scalar at h
  split at h
  case h_1 tail =>
    obtain ⟨⟨s, after⟩, -, heq⟩ := map_eq_ok.mp h
    obtain ⟨rfl, -⟩ := Prod.mk.inj heq
    exact fits_of_no_wholes rfl
  case h_8 | h_9 => exact fits_number h
  all_goals
    obtain ⟨rfl, -⟩ := Prod.mk.inj (Except.ok.inj h)
    exact fits_of_no_wholes rfl

/-! ## Lists and tables -/

section Parts

variable {item : List Char → Step Datum}
  (hitem : ∀ cs d rest, item cs = .ok (d, rest) → d.Fits)

include hitem

theorem fits_itemsFrom {fuel : Nat} {acc items : List Datum} {cs rest : List Char}
    (hacc : ∀ d ∈ acc, d.Fits) (h : itemsFrom item fuel acc cs = .ok (items, rest)) :
    ∀ d ∈ items, d.Fits := by
  fun_induction itemsFrom item fuel acc cs with
  | case3 fuel acc _ d _ hd after _ =>
      obtain ⟨rfl, -⟩ := Prod.mk.inj (Except.ok.inj h)
      exact fun x hx => List.forall_mem_cons.mpr ⟨hitem _ _ _ hd, hacc⟩ x (List.mem_reverse.mp hx)
  | case4 fuel acc _ d _ hd after _ ih => exact ih (List.forall_mem_cons.mpr ⟨hitem _ _ _ hd, hacc⟩) h
  | _ => simp at h

theorem fits_list_of_ok {cs rest : List Char} {d : Datum} (h : list item cs = .ok (d, rest)) : d.Fits := by
  unfold list at h
  split at h
  · obtain ⟨rfl, -⟩ := Prod.mk.inj (Except.ok.inj h)
    exact fits_list.mpr (by simp)
  · obtain ⟨⟨items, after⟩, hitems, heq⟩ := map_eq_ok.mp h
    obtain ⟨rfl, -⟩ := Prod.mk.inj heq
    exact fits_list.mpr (fits_itemsFrom hitem (by simp) hitems)

theorem fits_entriesFrom {fuel : Nat} {acc entries : List (String × Datum)} {cs rest : List Char}
    (hacc : ∀ e ∈ acc, e.2.Fits) (h : entriesFrom item fuel acc cs = .ok (entries, rest)) :
    ∀ e ∈ entries, e.2.Fits := by
  fun_induction entriesFrom item fuel acc cs with
  | case4 fuel acc _ key _ _ _ _ d _ hd after _ =>
      have hmore : ∀ e ∈ (key, d) :: acc, e.2.Fits :=
        List.forall_mem_cons.mpr ⟨hitem _ _ _ hd, hacc⟩
      obtain ⟨rfl, -⟩ := Prod.mk.inj (Except.ok.inj h)
      exact fun e he => hmore e (List.mem_reverse.mp he)
  | case5 fuel acc _ key _ _ _ _ d _ hd after _ ih =>
      exact ih (List.forall_mem_cons.mpr ⟨hitem _ _ _ hd, hacc⟩) h
  | _ => simp at h

theorem fits_table_of_ok {cs rest : List Char} {d : Datum} (h : table item cs = .ok (d, rest)) :
    d.Fits := by
  unfold table at h
  split at h
  · obtain ⟨rfl, -⟩ := Prod.mk.inj (Except.ok.inj h)
    exact fits_table.mpr (by simp)
  · obtain ⟨⟨entries, after⟩, hentries, heq⟩ := map_eq_ok.mp h
    obtain ⟨rfl, -⟩ := Prod.mk.inj heq
    exact fits_ofEntries (fits_entriesFrom hitem (by simp) hentries)

end Parts

/-! ## Values -/

theorem fits_value {k : Nat} {cs rest : List Char} {d : Datum} (h : value k cs = .ok (d, rest)) :
    d.Fits := by
  induction k generalizing cs d rest with
  | zero =>
      unfold value at h
      split at h
      · simp at h
      · simp at h
      · exact fits_scalar h
  | succ k ih =>
      unfold value at h
      split at h
      · exact fits_list_of_ok (fun _ _ _ => ih) h
      · exact fits_table_of_ok (fun _ _ _ => ih) h
      · exact fits_scalar h

/-- **Whatever is read fits**: no whole number in it has more digits than are read. -/
theorem fits_of_read? {cs : List Char} {d : Datum} (h : read? cs = .ok d) : d.Fits := by
  unfold read? readDeep? at h
  split at h
  · simp at h
  · split at h
    · simp at h
    · next value rest hvalue =>
        split at h
        · obtain rfl := Except.ok.inj h
          exact fits_value hvalue
        · simp at h

end Assay.Json

import Assay.Decimal.Text
import Mathlib.Algebra.Ring.Nat
import Mathlib.Data.List.Basic
import Mathlib.Data.List.Induction

/-!
# Digits of numbers

The digits a number is written with denote that number again, also behind zeros that pad them
(`natOf_toDigits`, `natOf_padded`). A number below the `w`th power of ten has at most `w` digits, and
exactly `w` of them when it is padded to that width (`length_padded`); and `w` digits denote such a
number (`natOf_lt`). So different whole numbers are written differently (`intText_injective`).
-/

namespace Assay.Decimal

/-! ## The digits alone -/

/-- **The digits of a number denote it.** -/
theorem natOf_toDigits (n : Nat) : natOf (Nat.toDigits 10 n) = n := Nat.ofDigitChars_ten_toDigits

theorem isAsciiDigit_of_mem_toDigits {n : Nat} {c : Char} (h : c ∈ Nat.toDigits 10 n) :
    isAsciiDigit c = true := by
  have hdigit : c.isDigit = true := Nat.isDigit_of_mem_toDigits (by decide) (by decide) h
  rw [Char.isDigit, Bool.and_eq_true, decide_eq_true_eq, decide_eq_true_eq] at hdigit
  rw [isAsciiDigit, Bool.and_eq_true, decide_eq_true_eq, decide_eq_true_eq]
  exact hdigit

/-- Only zero is written with a zero in front. -/
theorem head_toDigits {n : Nat} (h : n ≠ 0) : (Nat.toDigits 10 n).head? ≠ some '0' := by
  induction n using Nat.strongRecOn with
  | ind n ih =>
      rw [Nat.toDigits_eq_if (by decide)]
      split
      · next hn =>
          have hdigits : ∀ m < 10, m ≠ 0 → m.digitChar ≠ '0' := by decide
          simpa using hdigits n hn h
      · next hn =>
          rw [List.head?_append_of_ne_nil _ Nat.toDigits_ne_nil]
          exact ih (n / 10) (by omega) (by omega)

theorem length_toDigits_le {n w : Nat} (hw : 0 < w) (h : n < 10 ^ w) :
    (Nat.toDigits 10 n).length ≤ w :=
  (Nat.length_toDigits_le_iff (by decide) hw).mpr h

/-- A row of digits denotes a number below the power of ten of its length. -/
theorem natOf_lt {cs : List Char} (h : ∀ c ∈ cs, isAsciiDigit c = true) : natOf cs < 10 ^ cs.length := by
  induction cs using List.reverseRecOn with
  | nil => decide
  | append_singleton cs c ih =>
      have hcs := ih fun d hd => h d (List.mem_append_left _ hd)
      have hc : c.toNat ≤ 57 := by
        have hdigit := h c (List.mem_append_right _ (List.mem_singleton_self c))
        rw [isAsciiDigit, Bool.and_eq_true, decide_eq_true_eq, decide_eq_true_eq] at hdigit
        exact hdigit.2
      have hstep : natOf (cs ++ [c]) = 10 * natOf cs + (c.toNat - 48) := by
        rw [natOf, List.foldl_append]
        rfl
      rw [hstep, List.length_append, List.length_singleton, Nat.pow_succ]
      omega

/-! ## Digits behind zeros -/

@[simp] theorem toList_natText (n : Nat) : (natText n).toList = Nat.toDigits 10 n :=
  String.toList_ofList

theorem toList_padded (w n : Nat) : (padded w n).toList =
    List.replicate (w - (Nat.toDigits 10 n).length) '0' ++ Nat.toDigits 10 n := by
  rw [padded, String.toList_append, toList_natText, String.toList_ofList]
  simp only [natText, String.length_ofList]

theorem isAsciiDigit_of_mem_padded {w n : Nat} {c : Char} (h : c ∈ (padded w n).toList) :
    isAsciiDigit c = true := by
  rw [toList_padded, List.mem_append] at h
  rcases h with h | h
  · rw [List.eq_of_mem_replicate h]
    rfl
  · exact isAsciiDigit_of_mem_toDigits h

/-- Zeros in front do not count. -/
theorem natOf_zeros_append (k : Nat) (cs : List Char) :
    natOf (List.replicate k '0' ++ cs) = natOf cs := by
  have happend := Nat.ofDigitChars_append (b := 10) (l := List.replicate k '0') (m := cs) 0
  rw [Nat.ofDigitChars_replicate_zero, Nat.mul_zero] at happend
  exact happend

/-- **Padding keeps the number.** -/
theorem natOf_padded (w n : Nat) : natOf (padded w n).toList = n := by
  rw [toList_padded, natOf_zeros_append, natOf_toDigits]

/-- **Padding gives the width** that it is asked for, if the number fits. -/
theorem length_padded {w n : Nat} (hw : 0 < w) (h : n < 10 ^ w) : (padded w n).toList.length = w := by
  have hle := length_toDigits_le hw h
  rw [toList_padded, List.length_append, List.length_replicate]
  omega

/-! ## Signed numbers -/

theorem natText_injective : Function.Injective natText := by
  intro n m h
  rw [← natOf_toDigits n, ← natOf_toDigits m, ← toList_natText, ← toList_natText, h]

/-- A whole number is written in digits, after a minus sign at most. -/
theorem mem_intText {n : Int} {c : Char} (h : c ∈ (intText n).toList) : c = '-' ∨ isAsciiDigit c = true := by
  cases n with
  | ofNat n =>
      rw [intText, toList_natText] at h
      exact .inr (isAsciiDigit_of_mem_toDigits h)
  | negSucc n =>
      rw [intText, String.toList_append, toList_natText] at h
      rcases List.mem_append.mp h with h | h
      · exact .inl (by simpa using h)
      · exact .inr (isAsciiDigit_of_mem_toDigits h)

theorem natText_ne_minus (n m : Nat) : natText n ≠ "-" ++ natText m := by
  intro h
  have hminus : '-' ∈ (natText n).toList := by simp [h]
  rw [toList_natText] at hminus
  exact absurd (isAsciiDigit_of_mem_toDigits hminus) (by decide)

/-- **Different whole numbers are written differently.** -/
theorem intText_injective : Function.Injective intText := by
  intro n m h
  cases n with
  | ofNat n =>
      cases m with
      | ofNat m => rw [natText_injective h]
      | negSucc m => exact absurd h (natText_ne_minus n (m + 1))
  | negSucc n =>
      cases m with
      | ofNat m => exact absurd h.symm (natText_ne_minus m (n + 1))
      | negSucc m =>
          have hdigits : natText (n + 1) = natText (m + 1) := by simpa [intText] using h
          rw [Nat.succ_injective (natText_injective hdigits)]

end Assay.Decimal

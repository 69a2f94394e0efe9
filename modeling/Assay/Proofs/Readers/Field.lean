import Assay.Proofs.Decimal.Text
import Assay.Proofs.Outcome
import Assay.Proofs.Text.Lines
import Assay.Readers.Field

/-!
# Whole numbers in texts

A text is tried as a whole number if nothing but minus signs stands before digits of any kind, and then it
ought to be a numeral: with one sign at most, of decimal digits, and of not too many of them
(`wholeOfText_isOk`). The text that a whole number is written as is read as that number
(`wholeOfText_intText`), and what is read can be written out again (`natAbs_of_readDigits`).
-/

namespace Assay

/-- After a character that is no digit, no number is denoted any more. -/
theorem Text.foldl_decimals_none (cs : List Char) :
    cs.foldl (fun acc c => do return 10 * (← acc) + (← decimalValue? c)) (none : Option Nat) = none := by
  induction cs with
  | nil => rfl
  | cons c cs ih => exact ih

theorem Text.foldl_decimals_isSome (cs : List Char) (start : Nat) :
    (∃ n, cs.foldl (fun acc c => do return 10 * (← acc) + (← decimalValue? c)) (some start) = some n) ↔
      ∀ c ∈ cs, isDecimal c = true := by
  induction cs generalizing start with
  | nil => simp
  | cons c cs ih =>
      rw [List.foldl_cons, List.forall_mem_cons]
      cases hc : decimalValue? c with
      | none =>
          have hnone := foldl_decimals_none cs
          simp_all [isDecimal]
      | some d =>
          rw [isDecimal, hc]
          simpa using ih (10 * start + d)

/-- A number is denoted exactly by a row of decimal digits. -/
theorem Text.natOfDecimals?_isSome {cs : List Char} :
    (∃ n, natOfDecimals? cs = some n) ↔ cs ≠ [] ∧ ∀ c ∈ cs, isDecimal c = true := by
  cases cs with
  | nil => simp [natOfDecimals?]
  | cons c cs =>
      rw [natOfDecimals?, if_neg (by simp), foldl_decimals_isSome]
      simp

theorem Text.decimalValue?_of_isAsciiDigit {c : Char} (h : Decimal.isAsciiDigit c = true) :
    decimalValue? c = some (c.toNat - 48) := by
  rw [Decimal.isAsciiDigit, Bool.and_eq_true, decide_eq_true_eq, decide_eq_true_eq] at h
  -- the first row of digits is the one of ASCII
  have hrow : (decimalZeros.find? fun z => z ≤ c.toNat && c.toNat < z + 10) = some 48 := by
    refine List.find?_cons_of_pos ?_
    rw [Bool.and_eq_true, decide_eq_true_eq, decide_eq_true_eq]
    exact ⟨h.1, Nat.lt_succ_of_le h.2⟩
  rw [decimalValue?, hrow]
  rfl

theorem Text.isDecimal_of_isAsciiDigit {c : Char} (h : Decimal.isAsciiDigit c = true) : isDecimal c = true := by
  rw [isDecimal, decimalValue?_of_isAsciiDigit h]
  rfl

/-- Decimal digits of ASCII denote the number that they are written for. -/
theorem Text.natOfDecimals?_of_isAsciiDigit {cs : List Char} (hne : cs ≠ [])
    (h : ∀ c ∈ cs, Decimal.isAsciiDigit c = true) : natOfDecimals? cs = some (Decimal.natOf cs) := by
  rw [natOfDecimals?, if_neg (by simpa using hne), Decimal.natOf]
  generalize 0 = start
  clear hne
  induction cs generalizing start with
  | nil => rfl
  | cons c cs ih =>
      obtain ⟨hc, hcs⟩ := List.forall_mem_cons.mp h
      rw [List.foldl_cons, List.foldl_cons, decimalValue?_of_isAsciiDigit hc]
      exact ih hcs (10 * start + (c.toNat - 48))

theorem Text.decimalValue?_lt {c : Char} {d : Nat} (h : decimalValue? c = some d) : d < 10 := by
  obtain ⟨first, hfirst, rfl⟩ := Option.map_eq_some_iff.mp h
  have hrow := List.find?_some hfirst
  rw [Bool.and_eq_true, decide_eq_true_eq, decide_eq_true_eq] at hrow
  omega

theorem Text.foldl_decimals_lt {cs : List Char} {start n : Nat}
    (h : cs.foldl (fun acc c => do return 10 * (← acc) + (← decimalValue? c)) (some start) = some n) :
    n < (start + 1) * 10 ^ cs.length := by
  induction cs generalizing start with
  | nil =>
      obtain rfl : start = n := Option.some.inj h
      simp
  | cons c cs ih =>
      rw [List.foldl_cons] at h
      cases hc : decimalValue? c with
      | none =>
          have hnone := foldl_decimals_none cs
          simp_all
      | some d =>
          rw [hc] at h
          have hd := decimalValue?_lt hc
          have hstep : (10 * start + d + 1) * 10 ^ cs.length ≤ (start + 1) * 10 * 10 ^ cs.length :=
            Nat.mul_le_mul_right _ (by omega)
          rw [List.length_cons, Nat.pow_succ', ← Nat.mul_assoc]
          exact Nat.lt_of_lt_of_le (ih h) hstep

/-- A row of decimal digits denotes a number below the power of ten of its length. -/
theorem Text.natOfDecimals?_lt {cs : List Char} {n : Nat} (h : natOfDecimals? cs = some n) : n < 10 ^ cs.length := by
  obtain ⟨hne, -⟩ := natOfDecimals?_isSome.mp ⟨n, h⟩
  rw [natOfDecimals?, if_neg (by simpa using hne)] at h
  simpa using foldl_decimals_lt h

namespace Readers

/-- A row of decimal digits of any script, not too many of them, with at most one minus sign before it. -/
def IsNumeral (cs : List Char) : Prop :=
  ∃ digits, (cs = digits ∨ cs = '-' :: digits) ∧ digits ≠ [] ∧ (∀ d ∈ digits, Text.isDecimal d = true) ∧
    digits.length ≤ Decimal.maxWholeDigits

/-- The whole number that is read from what stands behind a sign, or where one could stand. -/
def readUnsigned (negative : Bool) (digits : List Char) (complaint : RecordFault) : Field Int :=
  if Decimal.maxWholeDigits < digits.length && digits.all Text.isDecimal then
    .error (.badValue (Decimal.tooManyDigits digits.length))
  else match Text.natOfDecimals? digits with
    | some n => .ok (if negative then -(n : Int) else n)
    | none => .error complaint

theorem readUnsigned_isOk (negative : Bool) (digits : List Char) (complaint : RecordFault) :
    (∃ n, readUnsigned negative digits complaint = .ok n) ↔
      digits ≠ [] ∧ (∀ d ∈ digits, Text.isDecimal d = true) ∧ digits.length ≤ Decimal.maxWholeDigits := by
  unfold readUnsigned
  have hvalue := @Text.natOfDecimals?_isSome digits
  by_cases hall : ∀ d ∈ digits, Text.isDecimal d = true
  · by_cases hmany : Decimal.maxWholeDigits < digits.length
    · rw [if_pos (by simpa [hmany] using hall)]
      simp [Nat.not_le.mpr hmany]
    · rw [if_neg (by simp [hmany])]
      cases hn : Text.natOfDecimals? digits with
      | none => simpa [hn, hall, Nat.le_of_not_lt hmany] using hvalue
      | some n => simpa [hn, hall, Nat.le_of_not_lt hmany] using hvalue
  · rw [if_neg (by simpa using fun _ => by simpa using hall)]
    cases hn : Text.natOfDecimals? digits with
    | none => simp [hall]
    | some n => exact absurd (hvalue.mp ⟨n, hn⟩).2 hall

theorem readDigits_cases (cs : List Char) : ∃ complaint,
    (∃ rest, cs = '-' :: rest ∧ readDigits cs = readUnsigned true rest complaint) ∨
      (∀ rest, cs ≠ '-' :: rest) ∧ readDigits cs = readUnsigned false cs complaint := by
  refine ⟨.badValue ("invalid literal for int() with base 10: " ++
    Text.take maxShownLength (Text.quoted (String.ofList cs))), ?_⟩
  unfold readDigits
  dsimp only
  split
  · next rest => exact .inl ⟨rest, rfl, rfl⟩
  · next hplain => exact .inr ⟨hplain, rfl⟩

/-- Digits are read exactly if they are a numeral. -/
theorem readDigits_isOk {cs : List Char} : (∃ n, readDigits cs = .ok n) ↔ IsNumeral cs := by
  have hminus : ¬ Text.isDecimal '-' = true := by decide +kernel
  unfold IsNumeral
  rcases readDigits_cases cs with ⟨complaint, ⟨rest, rfl, hread⟩ | ⟨hplain, hread⟩⟩
  · rw [hread, readUnsigned_isOk]
    constructor
    · exact fun h => ⟨rest, .inr rfl, h⟩
    · rintro ⟨digits, rfl | hdigits, h⟩
      -- behind the sign there would be another sign, which is no digit
      · exact absurd (h.2.1 '-' List.mem_cons_self) hminus
      · rwa [(List.cons.inj hdigits).2]
  · rw [hread, readUnsigned_isOk]
    constructor
    · exact fun h => ⟨cs, .inl rfl, h⟩
    · rintro ⟨digits, rfl | rfl, h⟩
      · exact h
      · exact absurd rfl (hplain digits)

theorem natAbs_of_readUnsigned {negative : Bool} {digits : List Char} {complaint : RecordFault} {n : Int}
    (h : readUnsigned negative digits complaint = .ok n) : n.natAbs < 10 ^ Decimal.maxWholeDigits := by
  obtain ⟨-, -, hlength⟩ := (readUnsigned_isOk negative digits complaint).mp ⟨n, h⟩
  unfold readUnsigned at h
  split at h
  · exact nomatch h
  split at h
  · next m hm =>
    have hlt := Text.natOfDecimals?_lt hm
    have hroom : 10 ^ digits.length ≤ 10 ^ Decimal.maxWholeDigits := Nat.pow_le_pow_right (by decide) hlength
    have habs : n.natAbs = m := by
      rw [← Except.ok.inj h]
      split <;> simp
    omega
  · exact nomatch h

/-- What is read from a text has few enough digits to be written out. -/
theorem natAbs_of_readDigits {cs : List Char} {n : Int} (h : readDigits cs = .ok n) :
    n.natAbs < 10 ^ Decimal.maxWholeDigits := by
  rcases readDigits_cases cs with ⟨complaint, ⟨rest, rfl, hread⟩ | ⟨-, hread⟩⟩
  · exact natAbs_of_readUnsigned (hread.symm.trans h)
  · exact natAbs_of_readUnsigned (hread.symm.trans h)

/-- The digits that a number is written with are read as that number, unless there are too many of them. -/
theorem readUnsigned_toDigits (negative : Bool) (n : Nat) (complaint : RecordFault) :
    readUnsigned negative (Nat.toDigits 10 n) complaint =
      if (Nat.toDigits 10 n).length ≤ Decimal.maxWholeDigits then .ok (if negative then -(n : Int) else n)
      else .error (.badValue (Decimal.tooManyDigits (Nat.toDigits 10 n).length)) := by
  have hdigits : ∀ c ∈ Nat.toDigits 10 n, Decimal.isAsciiDigit c = true :=
    fun _ => Decimal.isAsciiDigit_of_mem_toDigits
  have hall : (Nat.toDigits 10 n).all Text.isDecimal = true :=
    List.all_eq_true.mpr fun c hc => Text.isDecimal_of_isAsciiDigit (hdigits c hc)
  rw [readUnsigned, hall, Bool.and_true]
  by_cases hfits : (Nat.toDigits 10 n).length ≤ Decimal.maxWholeDigits
  · rw [if_pos hfits, if_neg (by simpa using hfits),
      Text.natOfDecimals?_of_isAsciiDigit Nat.toDigits_ne_nil hdigits, Decimal.natOf_toDigits]
  · rw [if_neg hfits, if_pos (by simpa using hfits)]

theorem readDigits_toDigits (n : Nat) : readDigits (Nat.toDigits 10 n) =
    if (Nat.toDigits 10 n).length ≤ Decimal.maxWholeDigits then .ok (n : Int)
    else .error (.badValue (Decimal.tooManyDigits (Nat.toDigits 10 n).length)) := by
  obtain ⟨complaint, ⟨rest, hminus, -⟩ | ⟨-, hread⟩⟩ := readDigits_cases (Nat.toDigits 10 n)
  · exact absurd (Decimal.isAsciiDigit_of_mem_toDigits (hminus ▸ List.mem_cons_self)) (by decide)
  · rw [hread, readUnsigned_toDigits]
    rfl

/-- A whole number is read from its digits and a minus sign before them. -/
theorem readDigits_intText (n : Int) : readDigits (Decimal.intText n).toList =
    if n.natAbs < 10 ^ Decimal.maxWholeDigits then .ok n
    else .error (.badValue (Decimal.tooManyDigits (Nat.toDigits 10 n.natAbs).length)) := by
  have hfits : n.natAbs < 10 ^ Decimal.maxWholeDigits ↔
      (Nat.toDigits 10 n.natAbs).length ≤ Decimal.maxWholeDigits :=
    (Nat.length_toDigits_le_iff (by decide) (by decide)).symm
  rw [if_congr hfits rfl rfl]
  cases n with
  | ofNat n =>
      rw [Decimal.intText, Decimal.toList_natText]
      exact readDigits_toDigits n
  | negSucc n =>
      rw [Decimal.intText, String.toList_append, Decimal.toList_natText]
      -- the text starts with the sign, so it is not read as bare digits
      obtain ⟨complaint, ⟨rest, hrest, hread⟩ | ⟨hplain, -⟩⟩ :=
        readDigits_cases ("-".toList ++ Nat.toDigits 10 (n + 1))
      · obtain rfl := (List.cons.inj hrest).2
        rw [hread, List.append_eq, List.nil_append, readUnsigned_toDigits]
        rfl
      · exact absurd rfl (hplain (Nat.toDigits 10 (n + 1)))

theorem looksWhole_toDigits (n : Nat) : looksWhole (Nat.toDigits 10 n) = true := by
  have hascii : ∀ c ∈ Nat.toDigits 10 n, Decimal.isAsciiDigit c = true :=
    fun _ => Decimal.isAsciiDigit_of_mem_toDigits
  obtain ⟨c, rest, hcons⟩ := List.exists_cons_of_ne_nil (Nat.toDigits_ne_nil (b := 10) (n := n))
  rw [hcons] at hascii ⊢
  have hc : ¬ (c == '-') = true := by
    intro h
    rw [eq_of_beq h] at hascii
    exact absurd (hascii '-' List.mem_cons_self) (by decide)
  have hdrop : (c :: rest).dropWhile (· == '-') = c :: rest := List.dropWhile_cons_of_neg hc
  unfold looksWhole
  rw [hdrop]
  show (true && (c :: rest).all Text.isDigit) = true
  rw [Bool.true_and, List.all_eq_true]
  intro d hd
  rw [Text.isDigit, Text.isDecimal_of_isAsciiDigit (hascii d hd), Bool.true_or]

theorem looksWhole_intText (n : Int) : looksWhole (Decimal.intText n).toList = true := by
  cases n with
  | ofNat n =>
      rw [Decimal.intText, Decimal.toList_natText]
      exact looksWhole_toDigits n
  | negSucc n =>
      -- the sign is dropped before the digits are looked at
      rw [Decimal.intText, String.toList_append, Decimal.toList_natText]
      exact looksWhole_toDigits (n + 1)

theorem trim_intText (n : Int) : Text.trim (Decimal.intText n).toList = (Decimal.intText n).toList := by
  apply Text.trim_of_visible
  intro c hc
  rcases Decimal.mem_intText hc with rfl | hdigit
  · decide
  · rw [Decimal.isAsciiDigit, Bool.and_eq_true, decide_eq_true_eq, decide_eq_true_eq] at hdigit
    obtain ⟨hlow, hhigh⟩ : 48 ≤ c.toNat ∧ c.toNat ≤ 57 := hdigit
    simp only [Text.isBlank, Bool.or_eq_false_iff, Bool.and_eq_false_iff, decide_eq_false_iff_not,
      beq_eq_false_iff_ne]
    omega

/-- **A whole number is read from what it is written as**, unless it has too many digits. -/
theorem wholeOfText_intText (n : Int) : wholeOfText (Decimal.intText n) =
    if n.natAbs < 10 ^ Decimal.maxWholeDigits then .ok (some n)
    else .error (.badValue (Decimal.tooManyDigits (Nat.toDigits 10 n.natAbs).length)) := by
  unfold wholeOfText
  dsimp only
  rw [trim_intText, if_pos (looksWhole_intText n), readDigits_intText]
  split <;> rfl

/-- **The whole number in a text can be told**, if there is one or not, exactly if what looks like one is a
numeral. -/
theorem wholeOfText_isOk {s : String} : (∃ n, wholeOfText s = .ok n) ↔
    (looksWhole (Text.trim s.toList) = true → IsNumeral (Text.trim s.toList)) := by
  unfold wholeOfText
  dsimp only
  split
  · next hlooks => rw [map_isOk, readDigits_isOk, forall_prop_of_true hlooks]
  · next hlooks => simp [hlooks]

theorem natAbs_of_wholeOfText? {s : Option String} {n : Int} (h : wholeOfText? s = .ok (some n)) :
    n.natAbs < 10 ^ Decimal.maxWholeDigits := by
  cases s with
  | none => exact nomatch h
  | some text =>
      rw [wholeOfText?, wholeOfText] at h
      split at h
      · obtain ⟨m, hm, hn⟩ := map_eq_ok.mp h
        obtain rfl := Option.some.inj hn
        exact natAbs_of_readDigits hm
      · exact nomatch h

end Readers

end Assay

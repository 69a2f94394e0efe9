import Assay.Proofs.Text.Split
import Assay.Readers.Code

/-!
# Shapes of codes

Every tool writes its codes in a few shapes: fixed texts, each followed by a number of digits. A text passes
for a code if it has one of the shapes, but digits of any script pass for digits, and a line feed may follow
(`CodedTool.isCode_iff`).
-/

namespace Assay.Readers

/-! ## Shapes of codes -/

/-- The text is made of the given texts, each followed by its number of digits. -/
inductive Shaped (digit : Char → Bool) : List (String × Nat) → List Char → Prop where
  | nil : Shaped digit [] []
  | cons {series : String} {n : Nat} {shape : List (String × Nat)} {digits rest cs : List Char} :
      digits.length = n → (∀ c ∈ digits, digit c = true) → Shaped digit shape rest →
      cs = series.toList ++ digits ++ rest → Shaped digit ((series, n) :: shape) cs

/-- A character of ASCII other than the line feed. -/
def IsPlainLetter (c : Char) : Prop := c.toNat < 128 ∧ c ≠ '\n'

instance (c : Char) : Decidable (IsPlainLetter c) := inferInstanceAs (Decidable (_ ∧ _))

/-- The letters of a text are few, so they are looked at one by one. -/
instance (cs : List Char) : Decidable (∀ c ∈ cs, IsPlainLetter c) := List.decidableBAll IsPlainLetter cs

theorem isPlainLetter_of_isDigit {c : Char} (h : c.isDigit = true) : IsPlainLetter c := by
  rw [Char.isDigit, Bool.and_eq_true, decide_eq_true_eq, decide_eq_true_eq] at h
  have hle : c.toNat ≤ 57 := UInt32.le_iff_toNat_le.mp h.2
  refine ⟨by omega, ?_⟩
  rintro rfl
  exact absurd h.1 (by decide)

/-- In ASCII there is one row of digits. -/
theorem isDigit_of_isDecimal {c : Char} (h : Text.isDecimal c = true) (hc : c.toNat < 128) :
    c.isDigit = true := by
  have hrows : ∀ z ∈ Text.decimalZeros, z = 48 ∨ 128 ≤ z := by decide
  rw [Text.isDecimal, Text.decimalValue?, Option.isSome_map, List.find?_isSome] at h
  obtain ⟨z, hz, hin⟩ := h
  simp only [Bool.and_eq_true, decide_eq_true_eq] at hin
  rcases hrows z hz with rfl | hz
  · rw [Char.isDigit, Bool.and_eq_true, decide_eq_true_eq, decide_eq_true_eq]
    exact ⟨UInt32.le_iff_toNat_le.mpr hin.1, UInt32.le_iff_toNat_le.mpr (by omega : c.toNat ≤ 57)⟩
  · omega

namespace Shaped

variable {digit digit' : Char → Bool} {shape : List (String × Nat)} {cs : List Char}

theorem imp (h : Shaped digit shape cs) (himp : ∀ c ∈ cs, digit c = true → digit' c = true) :
    Shaped digit' shape cs := by
  induction h with
  | nil => exact nil
  | cons hlength hdigits _ hcs ih =>
      subst hcs
      refine cons hlength (fun c hc => ?_) (ih fun c hc => ?_) rfl
      · exact himp c (by simp [hc]) (hdigits c hc)
      · exact himp c (by simp [hc])

/-- Every character is one of the fixed ones or a digit. -/
theorem forall_mem {P : Char → Prop} (h : Shaped digit shape cs) (hdigit : ∀ c, digit c = true → P c)
    (hseries : ∀ part ∈ shape, ∀ c ∈ part.1.toList, P c) : ∀ c ∈ cs, P c := by
  induction h with
  | nil => exact nofun
  | cons _ hdigits _ hcs ih =>
      intro c hc
      rw [hcs, List.mem_append, List.mem_append] at hc
      rcases hc with (hc | hc) | hc
      · exact hseries _ List.mem_cons_self c hc
      · exact hdigit c (hdigits c hc)
      · exact ih (fun part hpart => hseries part (List.mem_cons_of_mem _ hpart)) c hc

end Shaped

/-! ## What the gates let through -/

theorem afterDigits_eq_some {n : Nat} {cs rest : List Char} : afterDigits n cs = some rest ↔
    ∃ digits, digits.length = n ∧ (∀ c ∈ digits, Text.isDecimal c = true) ∧ cs = digits ++ rest := by
  induction n generalizing cs with
  | zero => simp [afterDigits]
  | succ n ih =>
      constructor
      · intro h
        cases cs with
        | nil => simp [afterDigits] at h
        | cons c cs =>
            rw [afterDigits] at h
            split at h
            · next hc =>
              obtain ⟨digits, hlength, hdigits, rfl⟩ := ih.mp h
              exact ⟨c :: digits, by simp [hlength], by simpa using ⟨hc, hdigits⟩, rfl⟩
            · simp at h
      · rintro ⟨digits, hlength, hdigits, rfl⟩
        cases digits with
        | nil => simp at hlength
        | cons c digits =>
            rw [List.forall_mem_cons] at hdigits
            rw [List.cons_append, afterDigits, if_pos hdigits.1]
            exact ih.mpr ⟨digits, by simpa using hlength, hdigits.2, rfl⟩

theorem atEnd_iff {cs : List Char} : atEnd cs = true ↔ cs = [] ∨ cs = ['\n'] := by
  unfold atEnd
  split <;> simp_all

/-- The text has the shape, but for the script of its digits and a line feed at its end. -/
def LooselyShaped (shape : List (String × Nat)) (cs : List Char) : Prop :=
  ∃ body, Shaped Text.isDecimal shape body ∧ (cs = body ∨ cs = body ++ ['\n'])

namespace LooselyShaped

variable {shape : List (String × Nat)} {cs : List Char}

theorem forall_mem {P : Char → Prop} (h : LooselyShaped shape cs)
    (hdigit : ∀ c, Text.isDecimal c = true → P c) (hfeed : P '\n')
    (hseries : ∀ part ∈ shape, ∀ c ∈ part.1.toList, P c) : ∀ c ∈ cs, P c := by
  obtain ⟨body, hbody, rfl | rfl⟩ := h
  · exact hbody.forall_mem hdigit hseries
  · intro c hc
    rcases List.mem_append.mp hc with hc | hc
    · exact hbody.forall_mem hdigit hseries c hc
    · obtain rfl := List.mem_singleton.mp hc
      exact hfeed

/-- In plain letters the shape is kept to the letter. -/
theorem shaped (h : LooselyShaped shape cs) (hplain : ∀ c ∈ cs, IsPlainLetter c) :
    Shaped Char.isDigit shape cs := by
  obtain ⟨body, hbody, rfl | rfl⟩ := h
  · exact hbody.imp fun c hc hdigit => isDigit_of_isDecimal hdigit (hplain c hc).1
  · exact absurd rfl (hplain '\n' (by simp)).2

/-- What follows the first part of a shape is shaped like the others. -/
theorem cons_iff {series : String} {n : Nat} : LooselyShaped ((series, n) :: shape) cs ↔
    ∃ rest, Text.startsWith series.toList cs = true ∧
      afterDigits n (cs.drop series.length) = some rest ∧ LooselyShaped shape rest := by
  constructor
  · rintro ⟨body, hbody, hcs⟩
    cases hbody with
    | @cons _ _ _ digits inner _ hlength hdigits hinner hbody =>
        -- a line feed at the end of the whole is one at the end of the rest
        have hrest : ∃ rest, cs = series.toList ++ (digits ++ rest) ∧ LooselyShaped shape rest := by
          rcases hcs with rfl | rfl
          · exact ⟨inner, by rw [hbody, List.append_assoc], inner, hinner, .inl rfl⟩
          · exact ⟨inner ++ ['\n'], by simp [hbody], inner, hinner, .inr rfl⟩
        obtain ⟨rest, rfl, hrest⟩ := hrest
        refine ⟨rest, Text.startsWith_append _ _, ?_, hrest⟩
        rw [← String.length_toList, List.drop_left]
        exact afterDigits_eq_some.mpr ⟨digits, hlength, hdigits, rfl⟩
  · rintro ⟨rest, hstart, hdigits, body, hbody, hrest⟩
    obtain ⟨digits, hlength, hdigits, hdrop⟩ := afterDigits_eq_some.mp hdigits
    have hcs : cs = series.toList ++ digits ++ rest := by
      rw [Text.eq_append_of_startsWith hstart, String.length_toList, hdrop, List.append_assoc]
    refine ⟨_, .cons hlength hdigits hbody rfl, ?_⟩
    rcases hrest with rfl | rfl
    · exact .inl hcs
    · exact .inr (by rw [hcs, List.append_assoc _ body])

theorem nil_iff : LooselyShaped [] cs ↔ atEnd cs = true := by
  rw [atEnd_iff]
  constructor
  · rintro ⟨body, ⟨⟩, hcs⟩
    exact hcs
  · intro hcs
    exact ⟨[], .nil, hcs⟩

end LooselyShaped

theorem isNumbered_iff {series : String} {n : Nat} {cs : List Char} :
    isNumbered series n cs = true ↔ LooselyShaped [(series, n)] cs := by
  rw [LooselyShaped.cons_iff, isNumbered, Bool.and_eq_true]
  cases afterDigits n (cs.drop series.length) with
  | none => simp
  | some rest => simp [LooselyShaped.nil_iff]

theorem isAdvisoryId_iff {s : String} :
    isAdvisoryId s = true ↔ LooselyShaped [("RUSTSEC-", 4), ("-", 4)] s.toList := by
  rw [LooselyShaped.cons_iff, isAdvisoryId, Bool.and_eq_true]
  show _ ∧ _ ↔ ∃ rest, _ ∧ afterDigits 4 (s.toList.drop 8) = some rest ∧ _
  cases afterDigits 4 (s.toList.drop 8) with
  | none => simp
  | some rest =>
      simp only [Option.some.injEq, exists_and_left, exists_eq_left']
      -- the second part of the shape is the hyphen with the number behind it
      refine and_congr_right fun _ => ?_
      rw [LooselyShaped.cons_iff]
      cases rest with
      | nil => simp [Text.startsWith]
      | cons c rest =>
          by_cases hc : c = '-'
          · subst hc
            show _ ↔ ∃ after, _ ∧ afterDigits 4 rest = some after ∧ _
            cases hdigits : afterDigits 4 rest with
            | none => simp [hdigits]
            | some after => simp [hdigits, Text.startsWith, LooselyShaped.nil_iff]
          · have hne : ('-' == c) = false := by simp [Ne.symm hc]
            simp [hc, hne, Text.startsWith]

/-! ## Tools with codes -/

/-- The tools whose rules have codes of a fixed shape. -/
inductive CodedTool where
  | gosec
  | staticcheck
  | pylint
  | cargoAudit
deriving Repr, DecidableEq

namespace CodedTool

/-- The shapes of a tool's codes. -/
def shapes : CodedTool → List (List (String × Nat))
  | gosec => [[("G", 3)]]
  | staticcheck => ["SA", "S", "ST", "QF", "U"].map fun series => [(series, 4)]
  | pylint => ["C", "R", "W", "E", "F", "I"].map fun series => [(series, 4)]
  | cargoAudit => [[("RUSTSEC-", 4), ("-", 4)]]

/-- The text passes for a code of the tool. -/
def isCode : CodedTool → String → Bool
  | gosec => isGosecCode
  | staticcheck => isStaticcheckCode
  | pylint => isPylintCode
  | cargoAudit => isAdvisoryId

/-- **What passes for a code** has one of the tool's shapes, but for the script of its digits and a line
feed. -/
theorem isCode_iff {k : CodedTool} {s : String} :
    k.isCode s = true ↔ ∃ shape ∈ k.shapes, LooselyShaped shape s.toList := by
  have hseries (all : List String) : (all.any fun series => isNumbered series 4 s.toList) = true ↔
      ∃ shape ∈ all.map fun series => [(series, 4)], LooselyShaped shape s.toList := by
    simp [List.any_eq_true, isNumbered_iff]
  cases k with
  | gosec => simp [isCode, isGosecCode, shapes, isNumbered_iff]
  | staticcheck => exact hseries _
  | pylint => exact hseries _
  | cargoAudit => simp [isCode, shapes, isAdvisoryId_iff]

end CodedTool

/-- A character that is neither in the shapes of a tool nor a digit or a line feed is in none of its
codes. -/
theorem not_mem_of_isCode {k : CodedTool} {s : String} (h : k.isCode s = true) {c : Char}
    (hshapes : ∀ shape ∈ k.shapes, ∀ part ∈ shape, c ∉ part.1.toList)
    (hdigit : Text.isDecimal c = false) (hfeed : c ≠ '\n') : c ∉ s.toList := by
  obtain ⟨shape, hshape, hs⟩ := CodedTool.isCode_iff.mp h
  intro hc
  refine hs.forall_mem (P := (· ≠ c)) ?_ hfeed.symm ?_ c hc rfl
  · rintro d hd rfl
    simp [hdigit] at hd
  · rintro part hpart d hd rfl
    exact hshapes shape hshape part hpart hd

end Assay.Readers

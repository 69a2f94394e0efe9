import Assay.Proofs.Outcome
import Assay.Proofs.Text.Split
import Assay.Sandbox.Policy

/-!
# Arguments that pass

An argument passes the check if it holds no NUL, and no shell mark unless it is a path from the root or the
working directory, or allowed as it is (`checkArgument_eq_ok`). A row of arguments passes if every one of
them does (`checkArguments_eq_ok`). A *plain* text, without any of these characters, passes by itself, and
what is put together from plain texts is plain.
-/

namespace Assay.Sandbox

/-! ## The check -/

variable {allowed : List String} {s : String}

/-- **What passes the check.** -/
theorem checkArgument_eq_ok : checkArgument allowed s = .ok () ↔
    '\x00' ∉ s.toList ∧ (hasShellMark s = true → isPathLike s = true ∨ s ∈ allowed) := by
  unfold checkArgument
  split
  · next hnul => simp_all
  · next hnul =>
    split
    · next hmark => simp_all
    · next hmark =>
      split
      · next hpath => simp_all
      · next hpath => simp_all

theorem checkArguments_eq_ok {arguments : List String} :
    checkArguments allowed arguments = .ok () ↔ ∀ s ∈ arguments, checkArgument allowed s = .ok () := by
  induction arguments with
  | nil => simp [checkArguments]
  | cons s rest ih =>
      rw [checkArguments, bind_eq_ok, List.forall_mem_cons, ← ih]
      constructor
      · rintro ⟨⟨⟩, hs, hrest⟩
        exact ⟨hs, hrest⟩
      · rintro ⟨hs, hrest⟩
        exact ⟨(), hs, hrest⟩

/-- A path from the root or the working directory passes whatever its names are. -/
theorem checkArgument_of_isPathLike (hnul : '\x00' ∉ s.toList) (hpath : isPathLike s = true) :
    checkArgument allowed s = .ok () :=
  checkArgument_eq_ok.mpr ⟨hnul, fun _ => .inl hpath⟩

/-! ## Plain texts -/

/-- The characters that an argument may be refused for. -/
def refusedMarks : List Char := '\x00' :: shellMarks

/-- No character of the text is one that an argument may be refused for. -/
def IsPlain (s : String) : Prop := ∀ c ∈ s.toList, c ∉ refusedMarks

/-- The code points of these characters, by which a text is looked through faster. -/
def refusedCodes : List Nat := [0, 59, 38, 124, 96, 36, 40, 41, 123, 125, 91, 93, 60, 62, 42, 63, 126]

theorem mem_refusedMarks_iff {c : Char} : c ∈ refusedMarks ↔ c.toNat ∈ refusedCodes := by
  have hcodes : refusedMarks.map Char.toNat = refusedCodes := by decide
  rw [← hcodes]
  exact (List.mem_map_of_injective fun _ _ h => Char.ext (UInt32.toNat_inj.mp h)).symm

instance : DecidablePred IsPlain := fun s =>
  decidable_of_iff (s.toList.all fun c => !refusedCodes.contains c.toNat) <| by
    simp [IsPlain, mem_refusedMarks_iff]

/-- What no refused character has, a character that has it is not refused for. -/
theorem not_mem_refusedMarks {holds : Char → Bool} (h : refusedMarks.any holds = false) {c : Char}
    (hc : holds c = true) : c ∉ refusedMarks := by
  intro hmem
  exact absurd hc (List.any_eq_false.mp h c hmem)

theorem isPlain_iff : IsPlain s ↔ '\x00' ∉ s.toList ∧ hasShellMark s = false := by
  simp only [IsPlain, refusedMarks, hasShellMark, List.any_eq_false, List.contains_iff_mem, List.mem_cons,
    not_or]
  constructor
  · intro h
    exact ⟨fun hnul => (h _ hnul).1 rfl, fun c hc => (h c hc).2⟩
  · rintro ⟨hnul, hmark⟩ c hc
    exact ⟨fun heq => hnul (heq ▸ hc), hmark c hc⟩

namespace IsPlain

theorem passes (h : IsPlain s) : checkArgument allowed s = .ok () := by
  obtain ⟨hnul, hmark⟩ := isPlain_iff.mp h
  exact checkArgument_eq_ok.mpr ⟨hnul, by simp [hmark]⟩

theorem append {s' : String} (h : IsPlain s) (h' : IsPlain s') : IsPlain (s ++ s') := by
  intro c hc
  rw [String.toList_append] at hc
  rcases List.mem_append.mp hc with hc | hc
  · exact h c hc
  · exact h' c hc

theorem join {sep : String} {parts : List String} (hsep : IsPlain sep) (h : ∀ p ∈ parts, IsPlain p) :
    IsPlain (Text.join sep parts) := by
  intro c hc
  rcases Text.mem_join hc with hc | ⟨p, hp, hc⟩
  · exact hsep c hc
  · exact h p hp c hc

end IsPlain

end Assay.Sandbox

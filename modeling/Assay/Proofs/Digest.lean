import Assay.Digest
import Assay.Proofs.Datum
import Assay.Proofs.Decimal.Text
import Assay.Proofs.Text.Split

/-!
# Keys and what is hashed for them

A hash is sixty-four hexadecimal digits (`Sha256.length_hex`, `Sha256.isHex_hex`), so its beginning has as
many as were asked for, up to that many (`length_take_hex`). A key of a finding is such a beginning, unless the
line has too many digits to be written out (`stableHash_keyParts`). The text that is hashed tells what it was
made from, if it is known how many bars the last two parts of it hold (`keyText_inj`): a number holds none, and
all other bars belong to the path.
-/

namespace Assay

/-- The digits that hashes are written with. -/
def hexDigits : List Char := "0123456789abcdef".toList

/-- Nothing but hexadecimal digits. -/
def IsHex (s : String) : Prop := ∀ c ∈ s.toList, c ∈ hexDigits

/-! ## Hashes -/

namespace Sha256

theorem nibble_mem : ∀ n < 16, nibble n ∈ hexDigits := by decide

theorem length_wordHex (w : UInt32) : (wordHex w).length = 8 := by
  rw [wordHex, List.length_map, List.length_range]

theorem wordHex_subset (w : UInt32) : wordHex w ⊆ hexDigits := by
  intro c hc
  obtain ⟨i, -, rfl⟩ := List.mem_map.mp hc
  exact nibble_mem _ (Nat.mod_lt _ (by decide))

theorem length_hex (s : String) : (hex s).length = 64 := by
  simp [hex, length_wordHex]

theorem isHex_hex (s : String) : IsHex (hex s) := by
  intro c hc
  rw [hex, String.toList_ofList, List.mem_flatMap] at hc
  obtain ⟨w, -, hc⟩ := hc
  exact wordHex_subset w hc

/-- The beginning of a hash has as many digits as were asked for, as long as the hash has them. -/
theorem length_take_hex (s : String) {n : Nat} (h : n ≤ 64) : (Text.take n (hex s)).length = n := by
  have hlen := length_hex s
  rw [← String.length_toList] at hlen
  rw [Text.take, String.length_ofList, List.length_take, hlen]
  omega

theorem isHex_take_hex (s : String) (n : Nat) : IsHex (Text.take n (hex s)) := by
  intro c hc
  rw [Text.take, String.toList_ofList] at hc
  exact isHex_hex _ c (List.mem_of_mem_take hc)

end Sha256

/-! ## Hashed texts -/

/-- How many bars a text holds. -/
def bars (s : String) : Nat := s.toList.count '|'

theorem bars_eq_zero {s : String} : bars s = 0 ↔ '|' ∉ s.toList := List.count_eq_zero

theorem bars_intText (n : Int) : bars (Decimal.intText n) = 0 := by
  rw [bars_eq_zero]
  intro h
  rcases Decimal.mem_intText h with h | h
  · exact absurd h (by decide)
  · exact absurd h (by decide)

/-- Parts are told apart by the joined text, if it is known how many bars each of them holds but the first. -/
theorem join_bar_inj {a a' : String} {rest rest' : List String} (hbars : rest.map bars = rest'.map bars)
    (h : Text.join "|" (a :: rest) = Text.join "|" (a' :: rest')) : a = a' ∧ rest = rest' :=
  Text.join_inj hbars h

/-- The text that is hashed for a finding. -/
def keyText (path : String) (line : Int) (kind tool : String) : String :=
  Text.join "|" [path, Decimal.intText line, kind, tool]

/-- **The text that is hashed for a finding** tells path, line, kind and tool, if it is known how many bars kind
and tool hold. -/
theorem keyText_inj {path path' kind kind' tool tool' : String} {line line' : Int}
    (hkind : bars kind = bars kind') (htool : bars tool = bars tool')
    (h : keyText path line kind tool = keyText path' line' kind' tool') :
    path = path' ∧ line = line' ∧ kind = kind' ∧ tool = tool' := by
  obtain ⟨hpath, hrest⟩ := join_bar_inj (by simp [bars_intText, hkind, htool]) h
  obtain ⟨hline, hrest⟩ := List.cons.inj hrest
  obtain ⟨hkind, hrest⟩ := List.cons.inj hrest
  exact ⟨hpath, Decimal.intText_injective hline, hkind, (List.cons.inj hrest).1⟩

/-! ## Keys -/

section Keys

variable {path kind tool : String} {line : Int}

theorem hashedText_keyParts (h : (Datum.int line).Fits) :
    hashedText (keyParts path line kind tool) = .ok (keyText path line kind tool) := by
  have htold : (Datum.int line).told = .ok (Decimal.intText line) := Datum.told_of_fits h
  simp only [hashedText, keyParts, List.mapM_cons, List.mapM_nil, htold]
  rfl

theorem hashedText_overlong (h : ¬ (Datum.int line).Fits) :
    hashedText (keyParts path line kind tool) = .error Decimal.overlong := by
  simp only [hashedText, keyParts, List.mapM_cons, Datum.told_of_not_fits h]
  rfl

/-- **A key of a finding** is the beginning of the hash of its text, and there is none exactly if the line has
too many digits. -/
theorem stableHash_keyParts (n : Nat) : stableHash (keyParts path line kind tool) n =
    if (Datum.int line).Fits then .ok (Text.take n (Sha256.hex (keyText path line kind tool)))
    else .error Decimal.overlong := by
  rw [stableHash]
  split
  · next h =>
    rw [hashedText_keyParts h]
    show Except.ok (hashStart n (keyText path line kind tool)) = _
    rw [hashStart, if_pos (Int.natCast_nonneg n), Int.toNat_natCast]
  · next h => rw [hashedText_overlong h]; rfl

theorem identifier_eq (path : String) (line : Int) (rule tool : String) : identifier path line rule tool =
    if (Datum.int line).Fits then .ok (Text.take 16 (Sha256.hex (keyText path line rule tool)))
    else .error Decimal.overlong :=
  stableHash_keyParts 16

theorem identifier_eq_ok {rule id : String} : identifier path line rule tool = .ok id ↔
    (Datum.int line).Fits ∧ id = Text.take 16 (Sha256.hex (keyText path line rule tool)) := by
  rw [identifier_eq]
  split
  · next h => simp [h, eq_comm]
  · next h => simp [h]

end Keys

end Assay

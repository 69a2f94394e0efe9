import Mathlib.Data.List.Basic
import Assay.Text.Split

/-!
# Splitting undoes joining

`splitOn` cuts a text at every separator, `join` puts texts together with separators between them. The
pieces of a cut hold no separator (`not_mem_of_mem_splitOn`), and texts that hold none come back from
the joined text exactly as they were (`splitOn_join`). Texts that hold some are still told apart by the
joined text, if it is known how many each of them holds but the first (`join_inj`).
-/

namespace Assay.Text

/-! ## Splitting -/

/-- No piece holds the separator, if the piece read so far holds none. -/
theorem not_mem_of_mem_splitFrom {sep : Char} {acc cs p : List Char} (hacc : sep ∉ acc)
    (hp : p ∈ splitFrom sep acc cs) : sep ∉ p := by
  induction cs generalizing acc with
  | nil =>
      simp only [splitFrom, List.mem_singleton] at hp
      subst hp
      simpa using hacc
  | cons c rest ih =>
      rw [splitFrom] at hp
      split at hp
      · rcases List.mem_cons.mp hp with rfl | hp
        · simpa using hacc
        · exact ih (by simp) hp
      · next hc =>
        have hne : sep ≠ c := fun h => hc (by simp [h])
        exact ih (by simp [hne, hacc]) hp

/-- The pieces of a text hold no separator. -/
theorem not_mem_of_mem_splitOn {sep : Char} {s p : String} (hp : p ∈ splitOn sep s) :
    sep ∉ p.toList := by
  obtain ⟨cs, hcs, rfl⟩ := List.mem_map.mp hp
  rw [String.toList_ofList]
  exact not_mem_of_mem_splitFrom (by simp) hcs

/-- The pieces are made of characters of the text. -/
theorem mem_of_mem_splitFrom {sep c : Char} {acc cs p : List Char} (hp : p ∈ splitFrom sep acc cs)
    (hc : c ∈ p) : c ∈ acc ∨ c ∈ cs := by
  induction cs generalizing acc with
  | nil =>
      rw [splitFrom, List.mem_singleton] at hp
      subst hp
      exact .inl (List.mem_reverse.mp hc)
  | cons d rest ih =>
      rw [splitFrom] at hp
      split at hp
      · rcases List.mem_cons.mp hp with rfl | hp
        · exact .inl (List.mem_reverse.mp hc)
        · rcases ih hp with h | h
          · simp at h
          · exact .inr (List.mem_cons_of_mem _ h)
      · rcases ih hp with h | h
        · rcases List.mem_cons.mp h with rfl | h
          · exact .inr List.mem_cons_self
          · exact .inl h
        · exact .inr (List.mem_cons_of_mem _ h)

@[inherit_doc mem_of_mem_splitFrom]
theorem mem_of_mem_splitOn {sep c : Char} {s p : String} (hp : p ∈ splitOn sep s)
    (hc : c ∈ p.toList) : c ∈ s.toList := by
  obtain ⟨cs, hcs, rfl⟩ := List.mem_map.mp hp
  rw [String.toList_ofList] at hc
  rcases mem_of_mem_splitFrom hcs hc with h | h
  · simp at h
  · exact h

/-- A text without the separator is one piece. -/
theorem splitFrom_of_not_mem {sep : Char} {acc cs : List Char} (h : sep ∉ cs) :
    splitFrom sep acc cs = [acc.reverse ++ cs] := by
  induction cs generalizing acc with
  | nil => simp [splitFrom]
  | cons c rest ih =>
      have hc : (c == sep) = false := by simpa using fun h' => h (by simp [h'])
      rw [splitFrom, hc]
      simp only [Bool.false_eq_true, ↓reduceIte]
      rw [ih fun h' => h (List.mem_cons_of_mem _ h')]
      simp

/-- The first piece ends at the first separator. -/
theorem splitFrom_append {sep : Char} {acc cs rest : List Char} (h : sep ∉ cs) :
    splitFrom sep acc (cs ++ sep :: rest) = (acc.reverse ++ cs) :: splitFrom sep [] rest := by
  induction cs generalizing acc with
  | nil => simp [splitFrom]
  | cons c cs ih =>
      have hc : (c == sep) = false := by simpa using fun h' => h (by simp [h'])
      rw [List.cons_append, splitFrom, hc]
      simp only [Bool.false_eq_true, ↓reduceIte]
      rw [ih fun h' => h (List.mem_cons_of_mem _ h')]
      simp

/-! ## Joining -/

theorem join_cons_cons (sep a b : String) (rest : List String) :
    join sep (a :: b :: rest) = a ++ sep ++ join sep (b :: rest) := rfl

theorem join_concat {sep last : String} {parts : List String} (hne : parts ≠ []) :
    join sep (parts ++ [last]) = join sep parts ++ sep ++ last := by
  induction parts with
  | nil => exact absurd rfl hne
  | cons a rest ih =>
      cases rest with
      | nil => rfl
      | cons b rest =>
          have ih := ih (List.cons_ne_nil b rest)
          rw [List.cons_append] at ih
          rw [List.cons_append, List.cons_append, join_cons_cons, ih, join_cons_cons]
          simp only [String.append_assoc]

/-- **Round trip.** Texts that hold no separator come back from the joined text. -/
theorem splitOn_join {sep : Char} {parts : List String} (h : ∀ p ∈ parts, sep ∉ p.toList)
    (hne : parts ≠ []) : splitOn sep (join (String.singleton sep) parts) = parts := by
  induction parts with
  | nil => exact absurd rfl hne
  | cons a rest ih =>
      have ha : sep ∉ a.toList := h a List.mem_cons_self
      cases rest with
      | nil =>
          show (splitFrom sep [] a.toList).map String.ofList = [a]
          rw [splitFrom_of_not_mem ha]
          simp
      | cons b rest =>
          have ih := ih (fun p hp => h p (List.mem_cons_of_mem _ hp)) (by simp)
          rw [splitOn] at ih
          rw [join_cons_cons, splitOn, String.toList_append, String.toList_append,
            String.toList_singleton, List.append_assoc, List.singleton_append, splitFrom_append ha,
            List.map_cons, ih]
          simp

/-- A text is taken apart at a separator in one way only, if it is known how many more follow. -/
theorem append_cons_inj {sep : Char} {before before' rest rest' : List Char}
    (hcount : rest.count sep = rest'.count sep)
    (h : before ++ sep :: rest = before' ++ sep :: rest') : before = before' ∧ rest = rest' := by
  induction before generalizing before' with
  | nil =>
      cases before' with
      | nil => exact ⟨rfl, (List.cons.inj h).2⟩
      | cons c before' =>
          -- one separator more would follow on the left
          rw [(List.cons.inj h).2, List.append_eq, List.count_append, List.count_cons_self] at hcount
          omega
  | cons c before ih =>
      cases before' with
      | nil =>
          rw [← (List.cons.inj h).2, List.append_eq, List.count_append, List.count_cons_self] at hcount
          omega
      | cons c' before' =>
          obtain ⟨rfl, hbehind⟩ := List.cons.inj h
          obtain ⟨rfl, rfl⟩ := ih hbehind
          exact ⟨rfl, rfl⟩

/-- How many separators a joined text holds depends only on how many its parts hold. -/
theorem count_join_congr {sep : Char} {parts parts' : List String}
    (h : parts.map (fun s => s.toList.count sep) = parts'.map fun s => s.toList.count sep) :
    (join (String.singleton sep) parts).toList.count sep =
      (join (String.singleton sep) parts').toList.count sep := by
  induction parts generalizing parts' with
  | nil =>
      obtain rfl : parts' = [] := List.map_eq_nil_iff.mp h.symm
      rfl
  | cons a rest ih =>
      cases parts' with
      | nil => simp at h
      | cons a' rest' =>
          obtain ⟨ha, hrest⟩ : a.toList.count sep = a'.toList.count sep ∧ _ := List.cons.inj h
          cases rest with
          | nil =>
              obtain rfl : rest' = [] := List.map_eq_nil_iff.mp hrest.symm
              exact ha
          | cons b rest =>
              cases rest' with
              | nil => simp at hrest
              | cons b' rest' =>
                  rw [join_cons_cons, join_cons_cons]
                  simp only [String.toList_append, List.count_append]
                  rw [ha, ih hrest]

/-- **Joined texts are told apart**, if it is known how many separators each of them holds but the first. -/
theorem join_inj {sep : Char} {a a' : String} {rest rest' : List String}
    (hcounts : rest.map (fun s => s.toList.count sep) = rest'.map fun s => s.toList.count sep)
    (h : join (String.singleton sep) (a :: rest) = join (String.singleton sep) (a' :: rest')) :
    a = a' ∧ rest = rest' := by
  induction rest generalizing a a' rest' with
  | nil =>
      obtain rfl : rest' = [] := List.map_eq_nil_iff.mp hcounts.symm
      exact ⟨h, rfl⟩
  | cons b rest ih =>
      cases rest' with
      | nil => simp at hcounts
      | cons b' rest' =>
          have hchars := congrArg String.toList h
          simp only [join_cons_cons, String.toList_append, String.toList_singleton, List.append_assoc,
            List.singleton_append] at hchars
          obtain ⟨ha, hjoined⟩ := append_cons_inj (count_join_congr hcounts) hchars
          obtain ⟨rfl, rfl⟩ := ih (List.cons.inj hcounts).2 (String.toList_inj.mp hjoined)
          exact ⟨String.toList_inj.mp ha, rfl⟩

/-- A joined text is made of the characters of its parts and the separator. -/
theorem mem_join {sep : String} {parts : List String} {c : Char} (h : c ∈ (join sep parts).toList) :
    c ∈ sep.toList ∨ ∃ p ∈ parts, c ∈ p.toList := by
  induction parts with
  | nil => simp [join] at h
  | cons a rest ih =>
      cases rest with
      | nil => exact .inr ⟨a, by simp, h⟩
      | cons b rest =>
          rw [join_cons_cons, String.toList_append, String.toList_append, List.mem_append,
            List.mem_append] at h
          rcases h with (h | h) | h
          · exact .inr ⟨a, by simp, h⟩
          · exact .inl h
          · rcases ih h with h | ⟨p, hp, h⟩
            · exact .inl h
            · exact .inr ⟨p, List.mem_cons_of_mem _ hp, h⟩

/-- Every character of a part is one of the joined text. -/
theorem mem_join_of_mem {sep p : String} {parts : List String} {c : Char} (hp : p ∈ parts)
    (hc : c ∈ p.toList) : c ∈ (join sep parts).toList := by
  induction parts with
  | nil => simp at hp
  | cons a rest ih =>
      cases rest with
      | nil => exact List.mem_singleton.mp hp ▸ hc
      | cons b rest =>
          rw [join_cons_cons, String.toList_append, List.mem_append]
          rcases List.mem_cons.mp hp with rfl | hp
          · exact .inl (by simp [hc])
          · exact .inr (ih hp)

/-- Joined texts are empty only if there is no text, or one that is empty itself. -/
theorem join_ne_empty {sep : String} {parts : List String} (hne : parts ≠ [])
    (h : ∀ p ∈ parts, p ≠ "") : join sep parts ≠ "" := by
  match parts, hne, h with
  | [a], _, h => exact h a (by simp)
  | a :: b :: rest, _, h =>
      rw [join_cons_cons]
      intro heq
      have ha : a = "" := by
        have hlen := congrArg String.toList heq
        simp at hlen
        exact hlen.1
      exact h a (by simp) ha

/-- A character that does not stand in a text cannot be replaced in it. -/
theorem replaceChar_of_not_mem {c : Char} {new s : String} (h : c ∉ s.toList) :
    replaceChar c new s = s := by
  have hchars : (s.toList.flatMap fun d => if d == c then new.toList else [d]) = s.toList := by
    rw [List.flatMap_congr (g := fun d => [d]), List.flatMap_singleton']
    intro d hd
    have hne : (d == c) = false := beq_eq_false_iff_ne.mpr fun heq => h (heq ▸ hd)
    rw [hne]
    rfl
  rw [replaceChar, hchars, String.ofList_toList]

/-- Replacing characters by a text leaves nothing only of nothing. -/
theorem replaceChar_eq_empty {c : Char} {new s : String} (hnew : new ≠ "") :
    replaceChar c new s = "" ↔ s = "" := by
  unfold replaceChar
  constructor
  · intro h
    have hchars : s.toList.flatMap (fun d => if d == c then new.toList else [d]) = [] := by
      simpa using congrArg String.toList h
    cases hs : s.toList with
    | nil => simpa using hs
    | cons d ds =>
        rw [hs, List.flatMap_cons, List.append_eq_nil_iff] at hchars
        by_cases hd : (d == c) = true
        · exact absurd (by simpa [hd] using hchars.1) hnew
        · simp [hd] at hchars
  · rintro rfl
    rfl

/-- Other characters are neither removed nor added. -/
theorem mem_replaceChar {c d : Char} {new s : String} (hnew : d ∉ new.toList) (hne : d ≠ c) :
    d ∈ (replaceChar c new s).toList ↔ d ∈ s.toList := by
  unfold replaceChar
  rw [String.toList_ofList, List.mem_flatMap]
  constructor
  · rintro ⟨e, he, hd⟩
    split at hd
    · exact absurd hd hnew
    · exact List.mem_singleton.mp hd ▸ he
  · intro hd
    exact ⟨d, hd, by simp [hne]⟩

theorem not_mem_replaceChar {c : Char} {new : String} (hnew : c ∉ new.toList) (s : String) :
    c ∉ (replaceChar c new s).toList := by
  unfold replaceChar
  rw [String.toList_ofList, List.mem_flatMap]
  rintro ⟨d, -, hc⟩
  split at hc
  · exact hnew hc
  · next hne => exact hne (by rw [List.mem_singleton.mp hc, beq_self_eq_true])

/-! ## Beginnings and ends -/

/-- A text is cut at the first separator. -/
theorem cut_append {sep : Char} {before rest : List Char} (h : sep ∉ before) :
    cut sep (before ++ sep :: rest) = some (before, rest) := by
  induction before with
  | nil => simp [cut]
  | cons c before ih =>
      have hc : (c == sep) = false := by simpa using fun heq => h (by simp [heq])
      rw [List.cons_append, cut, hc, ih fun hmem => h (List.mem_cons_of_mem _ hmem)]
      rfl

theorem cut_eq_some {sep : Char} {cs before rest : List Char} :
    cut sep cs = some (before, rest) ↔ cs = before ++ sep :: rest ∧ sep ∉ before := by
  constructor
  · intro h
    induction cs generalizing before with
    | nil => exact nomatch h
    | cons c cs ih =>
        rw [cut] at h
        split at h
        · next hc =>
          cases h
          exact ⟨congrArg (· :: _) (eq_of_beq hc), List.not_mem_nil⟩
        · next hc =>
          obtain ⟨⟨front, _⟩, hfront, heq⟩ := Option.map_eq_some_iff.mp h
          cases heq
          obtain ⟨rfl, hmem⟩ := ih hfront
          have hne : sep ≠ c := fun heq => hc (beq_iff_eq.mpr heq.symm)
          exact ⟨rfl, List.not_mem_cons_of_ne_of_not_mem hne hmem⟩
  · rintro ⟨rfl, hmem⟩
    exact cut_append hmem

theorem dropStart?_append (start rest : List Char) : dropStart? start (start ++ rest) = some rest := by
  induction start with
  | nil => rfl
  | cons c start ih => simp [dropStart?, ih]

theorem startsWith_append (start rest : List Char) : startsWith start (start ++ rest) = true := by
  induction start with
  | nil => rfl
  | cons c start ih => simp [startsWith, ih]

theorem startsWith_self (cs : List Char) : startsWith cs cs = true := by
  simpa using startsWith_append cs []

theorem eq_append_of_startsWith {start cs : List Char} (h : startsWith start cs = true) :
    cs = start ++ cs.drop start.length := by
  induction start generalizing cs with
  | nil => rfl
  | cons c start ih =>
      cases cs with
      | nil => simp [startsWith] at h
      | cons d cs =>
          rw [startsWith, Bool.and_eq_true, beq_iff_eq] at h
          obtain ⟨rfl, h⟩ := h
          simpa using ih h

/-- Nothing but a line feed stands after what is before the last one. -/
theorem mem_beforeLastFeed {c : Char} {cs : List Char} (h : c ∈ cs) : c = '\n' ∨ c ∈ beforeLastFeed cs := by
  unfold beforeLastFeed
  split
  · next hlast =>
    rw [← List.dropLast_append_getLast? _ hlast, List.mem_append, List.mem_singleton] at h
    exact h.symm
  · exact .inr h

end Assay.Text

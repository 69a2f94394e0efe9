import Assay.Proofs.Text.Split
import Assay.Text.Blank
import Assay.Text.Split

/-!
# Lines of joined texts

Texts without line boundaries, joined by line feeds, come back as the lines of the joined text
(`linesFrom_feedSeparated`). A line boundary inside a text makes it more than one line: the lines that
show something are then more than the texts (`countP_lines`).
-/

namespace Assay.Text

/-! ## Trimming -/

/-- The text shows something: not all of it is blank. -/
def shows (cs : List Char) : Bool := cs.any fun c => !isBlank c

@[simp] theorem shows_nil : shows [] = false := rfl

@[simp] theorem shows_cons {c : Char} {cs : List Char} : shows (c :: cs) = (!isBlank c || shows cs) :=
  List.any_cons

theorem shows_append {as bs : List Char} : shows (as ++ bs) = (shows as || shows bs) :=
  List.any_append

theorem shows_reverse {cs : List Char} : shows cs.reverse = shows cs := List.any_reverse

theorem trimStart_append {ws cs : List Char} (hws : ∀ c ∈ ws, isBlank c = true) :
    trimStart (ws ++ cs) = trimStart cs := List.dropWhile_append_of_pos hws

theorem trimStart_cons {c : Char} {cs : List Char} (hc : isBlank c = false) :
    trimStart (c :: cs) = c :: cs := by
  simp [trimStart, hc]

/-- What trimming leaves begins with a visible character. -/
theorem isBlank_of_trimStart {c : Char} {cs ds : List Char} (h : trimStart cs = c :: ds) : isBlank c = false := by
  have hhead := List.head?_dropWhile_not isBlank cs
  rwa [← trimStart, h] at hhead

/-- Trimming takes away nothing that shows. -/
theorem shows_trimStart (cs : List Char) : shows (trimStart cs) = shows cs := by
  induction cs with
  | nil => rfl
  | cons c cs ih =>
      cases hc : isBlank c with
      | true => simpa [trimStart, shows, hc] using ih
      | false => rw [trimStart_cons hc]

/-- A text that begins and ends with visible characters is what trimming leaves of it between blanks. -/
theorem trim_between {before cs after : List Char} {first last : Char}
    (hbefore : ∀ c ∈ before, isBlank c = true) (hafter : ∀ c ∈ after, isBlank c = true)
    (hfirst : cs.head? = some first) (hlast : cs.getLast? = some last)
    (hvisible : isBlank first = false ∧ isBlank last = false) : trim (before ++ (cs ++ after)) = cs := by
  have hstart : trimStart (before ++ (cs ++ after)) = cs ++ after := by
    obtain ⟨r, rfl⟩ := List.head?_eq_some_iff.mp hfirst
    rw [trimStart_append hbefore, List.cons_append, trimStart_cons hvisible.1]
  obtain ⟨r, rfl⟩ := List.getLast?_eq_some_iff.mp hlast
  rw [trim, hstart, trimEnd, List.reverse_append, List.reverse_append, List.reverse_singleton]
  show (trimStart (after.reverse ++ (last :: r.reverse))).reverse = _
  rw [trimStart_append (by simpa using hafter), trimStart_cons hvisible.2]
  simp

theorem trim_of_visible {cs : List Char} (h : ∀ c ∈ cs, isBlank c = false) : trim cs = cs := by
  cases cs with
  | nil => rfl
  | cons c rest =>
      have hne := List.cons_ne_nil c rest
      have htrim := @trim_between [] (c :: rest) [] c _ nofun nofun rfl (List.getLast?_eq_some_getLast hne)
        ⟨h c List.mem_cons_self, h _ (List.getLast_mem hne)⟩
      rwa [List.nil_append, List.append_nil] at htrim

/-- A text that trimming leaves as it is has visible characters at both ends. -/
theorem ends_of_trim_eq {cs : List Char} (hne : cs ≠ []) (h : trim cs = cs) :
    (∃ first, cs.head? = some first ∧ isBlank first = false) ∧
      ∃ last, cs.getLast? = some last ∧ isBlank last = false := by
  have hstart : trimStart cs = cs := by
    refine (List.dropWhile_suffix isBlank).eq_of_length_le ?_
    have hlength := (List.dropWhile_suffix (l := (trimStart cs).reverse) isBlank).length_le
    have htrim := congrArg List.length h
    rw [trim, trimEnd, List.length_reverse] at htrim
    rw [htrim, List.length_reverse] at hlength
    exact hlength
  have hend : trimStart cs.reverse = cs.reverse := by
    rw [trim, hstart, trimEnd] at h
    exact List.reverse_eq_iff.mp h
  constructor
  · obtain ⟨c, ds, rfl⟩ := List.exists_cons_of_ne_nil hne
    exact ⟨c, rfl, isBlank_of_trimStart hstart⟩
  · obtain ⟨c, ds, hcs⟩ := List.exists_cons_of_ne_nil (List.reverse_ne_nil_iff.mpr hne)
    rw [hcs] at hend
    refine ⟨c, ?_, isBlank_of_trimStart hend⟩
    rw [← List.head?_reverse, hcs, List.head?_cons]

theorem isEmpty_trimStart (cs : List Char) : (trimStart cs).isEmpty = !shows cs := by
  rw [← shows_trimStart]
  cases hleft : trimStart cs with
  | nil => rfl
  | cons c ds => rw [shows_cons, isBlank_of_trimStart hleft]; rfl

/-- Trimming leaves nothing exactly of a text that shows nothing. -/
theorem isEmpty_trim (cs : List Char) : (trim cs).isEmpty = !shows cs := by
  show ((trimStart (trimStart cs).reverse).reverse).isEmpty = _
  rw [List.isEmpty_reverse, isEmpty_trimStart, shows_reverse, shows_trimStart]

/-! ## Lines -/

theorem isBlank_of_isLineBreak {c : Char} (h : isLineBreak c = true) : isBlank c = true := by
  simp only [isLineBreak, isBlank, Bool.or_eq_true, Bool.and_eq_true, decide_eq_true_eq,
    beq_iff_eq] at h ⊢
  omega

/-- No character between two printable ones of ASCII ends a line. -/
theorem isLineBreak_of_between {low c high : Char} (hc : low ≤ c ∧ c ≤ high) (hlow : 32 ≤ low.toNat)
    (hhigh : high.toNat < 127) : isLineBreak c = false := by
  have hle : low.toNat ≤ c.toNat := UInt32.le_iff_toNat_le.mp hc.1
  have hge : c.toNat ≤ high.toNat := UInt32.le_iff_toNat_le.mp hc.2
  rw [Bool.eq_false_iff]
  simp only [isLineBreak, ne_eq, Bool.or_eq_true, Bool.and_eq_true, decide_eq_true_eq, beq_iff_eq]
  omega

theorem linesFrom_cons {acc rest : List Char} {c : Char} (hc : isLineBreak c = false) :
    linesFrom acc false (c :: rest) = linesFrom (c :: acc) false rest := by
  simp [linesFrom, hc]

theorem linesFrom_cons_of_break {acc rest : List Char} {c : Char} (hc : isLineBreak c = true)
    (hreturn : c ≠ '\r') :
    linesFrom acc false (c :: rest) = acc.reverse :: linesFrom [] false rest := by
  have hreturn : (c == '\r') = false := beq_eq_false_iff_ne.mpr hreturn
  simp [linesFrom, hc, hreturn]

/-- A text without boundaries goes into the line in the making. -/
theorem linesFrom_append {acc cs rest : List Char} (hcs : ∀ c ∈ cs, isLineBreak c = false) :
    linesFrom acc false (cs ++ rest) = linesFrom (cs.reverse ++ acc) false rest := by
  induction cs generalizing acc with
  | nil => rfl
  | cons c cs ih =>
      obtain ⟨hc, hcs⟩ := List.forall_mem_cons.mp hcs
      rw [List.cons_append, linesFrom_cons hc, ih hcs]
      simp

/-- Texts with a line feed between any two neighbours. -/
def feedSeparated (parts : List (List Char)) : List Char := ['\n'].intercalate parts

@[simp] theorem feedSeparated_singleton (part : List Char) : feedSeparated [part] = part := by
  simp [feedSeparated]

@[simp] theorem feedSeparated_cons_cons (part next : List Char) (parts : List (List Char)) :
    feedSeparated (part :: next :: parts) = part ++ '\n' :: feedSeparated (next :: parts) := by
  simp [feedSeparated]

theorem toList_join (parts : List String) :
    (join "\n" parts).toList = feedSeparated (parts.map String.toList) := by
  induction parts with
  | nil => rfl
  | cons part parts ih =>
      cases parts with
      | nil => simp [join]
      | cons next parts =>
          rw [join_cons_cons, String.toList_append, String.toList_append, ih]
          simp

/-- **Round trip.** Texts without line boundaries are the lines of the joined text. -/
theorem linesFrom_feedSeparated {parts : List (List Char)} (hne : ∀ p ∈ parts, p ≠ [])
    (h : ∀ p ∈ parts, ∀ c ∈ p, isLineBreak c = false) :
    linesFrom [] false (feedSeparated parts) = parts := by
  induction parts with
  | nil => rfl
  | cons part parts ih =>
      obtain ⟨hpart, hparts⟩ := List.forall_mem_cons.mp h
      obtain ⟨hpartNe, hpartsNe⟩ := List.forall_mem_cons.mp hne
      cases parts with
      | nil =>
          rw [feedSeparated_singleton, ← List.append_nil part, linesFrom_append hpart]
          simp [linesFrom, hpartNe]
      | cons next parts =>
          rw [feedSeparated_cons_cons, linesFrom_append hpart,
            linesFrom_cons_of_break (by decide) (by decide), ih hpartsNe hparts]
          simp

/-! ## Counting lines -/

/-- A text with a line boundary inside it that no carriage return makes, before and after which it shows
something. -/
def IsBroken (cs : List Char) : Prop :=
  ∃ before c after, cs = before ++ c :: after ∧ isLineBreak c = true ∧ c ≠ '\r' ∧
    shows before = true ∧ shows after = true

/-- The line in the making ends at the latest at a boundary further on, so what has been shown up to
there counts as a line. The induction is on the text up to the boundary. -/
theorem countP_linesFrom_break {before : List Char} {c : Char} (acc rest : List Char)
    (hc : isLineBreak c = true) (hreturn : c ≠ '\r') (hbefore : '\r' ∉ before) :
    (if shows acc || shows before then 1 else 0) + (linesFrom [] false rest).countP shows ≤
      (linesFrom acc false (before ++ c :: rest)).countP shows := by
  induction before generalizing acc with
  | nil =>
      rw [List.nil_append, linesFrom_cons_of_break hc hreturn, List.countP_cons, shows_reverse]
      simp [Nat.add_comm]
  | cons b before ih =>
      have hb : b ≠ '\r' := fun h => hbefore (h ▸ List.mem_cons_self)
      have ih (acc : List Char) := @ih acc fun h => hbefore (List.mem_cons_of_mem b h)
      rw [List.cons_append]
      cases hbreak : isLineBreak b with
      | false =>
          have hcomm : (shows acc || shows (b :: before)) = (shows (b :: acc) || shows before) := by
            rw [shows_cons, shows_cons]
            ac_rfl
          rw [linesFrom_cons hbreak, hcomm]
          exact ih (b :: acc)
      | true =>
          -- the boundary itself shows nothing, so what shows something stands on one side of it
          have hblank : shows (b :: before) = shows before := by
            simp [isBlank_of_isLineBreak hbreak]
          have hrest := ih []
          rw [linesFrom_cons_of_break hbreak hb, List.countP_cons, shows_reverse, hblank]
          rw [shows_nil, Bool.false_or] at hrest
          cases shows acc with
          | false => simpa using hrest
          | true =>
              simp only [Bool.true_or, if_true]
              omega

/-- A text that shows something makes up a line in front of a boundary. -/
theorem countP_linesFrom_line {p : List Char} {c : Char} (rest : List Char) (hshow : shows p = true)
    (hp : '\r' ∉ p) (hc : isLineBreak c = true) (hreturn : c ≠ '\r') :
    1 + (linesFrom [] false rest).countP shows ≤ (linesFrom [] false (p ++ c :: rest)).countP shows := by
  simpa [hshow] using countP_linesFrom_break [] rest hc hreturn hp

/-- What a broken text shows in front of its boundary makes up a line of its own. -/
theorem countP_linesFrom_broken {p : List Char} (h : IsBroken p) (hp : '\r' ∉ p) :
    ∃ after, shows after = true ∧ '\r' ∉ after ∧ ∀ rest,
      1 + (linesFrom [] false (after ++ rest)).countP shows ≤ (linesFrom [] false (p ++ rest)).countP shows := by
  obtain ⟨before, c, after, rfl, hc, hne, hbefore, hafter⟩ := h
  have hreturn : '\r' ∉ before := fun hmem => hp (List.mem_append_left _ hmem)
  refine ⟨after, hafter, fun hmem => hp (List.mem_append_right _ (List.mem_cons_of_mem _ hmem)), fun rest => ?_⟩
  rw [List.append_assoc, List.cons_append]
  exact countP_linesFrom_line (after ++ rest) hbefore hreturn hc hne

/-- What has been shown up to the end of a text counts as a line. -/
theorem countP_linesFrom_end {cs : List Char} (acc : List Char) (hcs : '\r' ∉ cs)
    (hshows : (shows acc || shows cs) = true) : 1 ≤ (linesFrom acc false cs).countP shows := by
  induction cs generalizing acc with
  | nil =>
      have hacc : shows acc = true := by simpa using hshows
      cases acc with
      | nil => simp at hacc
      | cons a acc =>
          show 1 ≤ [(a :: acc).reverse].countP shows
          rw [List.countP_singleton, shows_reverse, hacc]
          decide
  | cons c cs ih =>
      have hc : c ≠ '\r' := fun h => hcs (h ▸ List.mem_cons_self)
      have hcs : '\r' ∉ cs := fun h => hcs (List.mem_cons_of_mem c h)
      cases hbreak : isLineBreak c with
      | false =>
          rw [linesFrom_cons hbreak]
          refine ih _ hcs ?_
          rw [← hshows, shows_cons, shows_cons]
          ac_rfl
      | true =>
          rw [linesFrom_cons_of_break hbreak hc, List.countP_cons, shows_reverse]
          cases hacc : shows acc with
          | true => simp
          | false =>
              have hrest : shows cs = true := by
                simpa [hacc, isBlank_of_isLineBreak hbreak] using hshows
              simpa using @ih [] hcs (by simp [hrest])

/-- Texts that show something make up a line each, and a broken one among them makes up another one. -/
theorem countP_lines {parts : List (List Char)} (hreturn : ∀ p ∈ parts, '\r' ∉ p)
    (hshows : ∀ p ∈ parts, shows p = true) :
    parts.length ≤ (linesFrom [] false (feedSeparated parts)).countP shows ∧
      ((∃ p ∈ parts, IsBroken p) →
        parts.length < (linesFrom [] false (feedSeparated parts)).countP shows) := by
  induction parts with
  | nil => simp
  | cons part parts ih =>
      obtain ⟨hpart, hparts⟩ := List.forall_mem_cons.mp hreturn
      obtain ⟨hshow, hshows⟩ := List.forall_mem_cons.mp hshows
      obtain ⟨hall, hbroken⟩ := ih hparts hshows
      cases parts with
      | nil =>
          rw [feedSeparated_singleton]
          refine ⟨countP_linesFrom_end [] hpart (by simp [hshow]), ?_⟩
          rintro ⟨p, hp, hbreak⟩
          obtain rfl := List.mem_singleton.mp hp
          obtain ⟨after, hafter, hreturn, hfirst⟩ := countP_linesFrom_broken hbreak hpart
          have hlast := countP_linesFrom_end [] hreturn (by simp [hafter])
          have hfirst := hfirst []
          rw [List.append_nil, List.append_nil] at hfirst
          rw [List.length_singleton]
          omega
      | cons next parts =>
          rw [feedSeparated_cons_cons, List.length_cons]
          have hfirst := countP_linesFrom_line (c := '\n') (feedSeparated (next :: parts)) hshow hpart
            (by decide) (by decide)
          refine ⟨by omega, ?_⟩
          rintro ⟨p, hp, hbreak⟩
          rcases List.mem_cons.mp hp with rfl | hp
          · -- the broken text makes up a line before its boundary and one after it
            obtain ⟨after, hafter, hreturn, hbroken⟩ := countP_linesFrom_broken hbreak hpart
            have hfirst := hbroken ('\n' :: feedSeparated (next :: parts))
            have hsecond := countP_linesFrom_line (c := '\n') (feedSeparated (next :: parts)) hafter hreturn
              (by decide) (by decide)
            omega
          · have := hbroken ⟨p, hp, hbreak⟩
            omega

end Assay.Text

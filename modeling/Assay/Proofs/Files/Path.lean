import Mathlib.Data.List.Induction
import Assay.Files.Path
import Assay.Proofs.Text.Split

/-!
# Paths and their components

The components of a path that was read from a text hold no slash, so they come back from the text of
the path (`splitOn_relativeText`). The components that lead from a base to a path are exactly what has
to be added to the base (`relativeTo?_eq_some`). A path is either a root alone or a child of the path above it
(`child_induction`), and what lies at or above a child is the child or lies at or above its parent
(`isWithin_child`).
-/

namespace Assay.Files

/-- Components that can be written: none of them holds a slash. -/
def Writable (parts : List String) : Prop := ∀ p ∈ parts, '/' ∉ p.toList

theorem Writable.append {ps qs : List String} (hp : Writable ps) (hq : Writable qs) :
    Writable (ps ++ qs) := by
  intro p hmem
  rcases List.mem_append.mp hmem with h | h
  · exact hp p h
  · exact hq p h

theorem Writable.sublist {ps qs : List String} (h : Writable qs) (hs : ps.Sublist qs) :
    Writable ps := fun p hp => h p (hs.subset hp)

/-- The pieces of a text between slashes can be written. -/
theorem writable_splitOn (s : String) : Writable (Text.splitOn '/' s) :=
  fun _ hp => Text.not_mem_of_mem_splitOn hp

namespace Path

@[simp] theorem rooted_anchor (parts : List String) : (rooted parts).anchor = .root := rfl

@[simp] theorem rooted_parts (parts : List String) : (rooted parts).parts = parts := rfl

theorem writable_partsOf (s : String) : Writable (partsOf s) :=
  (writable_splitOn s).sublist List.filter_sublist

theorem eq_rooted_of_anchor {p : Path} (h : p.anchor = .root) : p = rooted p.parts := by
  obtain ⟨anchor, parts⟩ := p
  obtain rfl : anchor = .root := h
  rfl

theorem mem_of_mem_counted {pieces : List String} {c : String} (h : c ∈ counted pieces) : c ∈ pieces :=
  List.mem_of_mem_filter h

/-- Nothing is dropped where all pieces count. -/
theorem counted_eq_self {pieces : List String} (h : ∀ p ∈ pieces, p ≠ "" ∧ p ≠ ".") :
    counted pieces = pieces := List.filter_eq_self.mpr fun p hp => by simp [h p hp]

theorem mem_splitOn_of_mem_ofString {s c : String} (h : c ∈ (ofString s).parts) : c ∈ Text.splitOn '/' s :=
  mem_of_mem_counted h

/-- The components of a path that was read from a text can be written. -/
theorem writable_ofString (s : String) : Writable (ofString s).parts := writable_partsOf s

/-- Pieces without a slash denote what their text denotes. -/
theorem ofPieces_eq {pieces : List String} (h : Writable pieces) :
    ofPieces pieces = ofString (Text.join "/" pieces) := by
  rw [ofPieces, ofString, partsOf]
  cases pieces with
  | nil => rfl
  | cons p rest => rw [show Text.splitOn '/' (Text.join "/" (p :: rest)) = p :: rest from
      Text.splitOn_join h (List.cons_ne_nil p rest)]

theorem isAbsolute_div {p : Path} (h : p.isAbsolute = true) (q : Path) : (p / q).isAbsolute = true := by
  show (p.join q).isAbsolute = true
  unfold join
  split
  · next hq => exact hq
  · exact h

/-- The text of a path that starts at a root has a slash in it. -/
theorem slash_mem_toString {p : Path} (h : p.isAbsolute = true) : '/' ∈ p.toString.toList := by
  obtain ⟨anchor, parts⟩ := p
  cases anchor with
  | here => exact nomatch h
  | root | doubleRoot => simp [toString, Anchor.text]

theorem relativeText_eq_join {parts : List String} (hne : parts ≠ []) :
    relativeText parts = Text.join "/" parts := by
  unfold relativeText toString
  simp [hne, Anchor.text]

/-- Components that can be written are the pieces of their text. -/
theorem splitOn_relativeText {parts : List String} (h : Writable parts) (hne : parts ≠ []) :
    Text.splitOn '/' (relativeText parts) = parts := by
  rw [relativeText_eq_join hne]
  exact Text.splitOn_join h hne

theorem relativeText_ne_empty {parts : List String} (hne : parts ≠ []) (hparts : ∀ p ∈ parts, p ≠ "") :
    relativeText parts ≠ "" := by
  rw [relativeText_eq_join hne]
  exact Text.join_ne_empty hne hparts

/-- The text of a path without an anchor is made of slashes and the characters of its components. -/
theorem mem_relativeText {parts : List String} {c : Char} (hne : parts ≠ [])
    (h : c ∈ (relativeText parts).toList) : c = '/' ∨ ∃ p ∈ parts, c ∈ p.toList := by
  rw [relativeText_eq_join hne] at h
  rcases Text.mem_join h with h | h
  · exact .inl (by simpa using h)
  · exact .inr h

theorem toString_rooted (parts : List String) :
    (rooted parts).toString = "/" ++ Text.join "/" parts := rfl

@[simp] theorem below_nil (p : Path) : p.below [] = p := by simp [below]

@[simp] theorem below_anchor (p : Path) (parts : List String) : (p.below parts).anchor = p.anchor := rfl

@[simp] theorem below_parts (p : Path) (parts : List String) : (p.below parts).parts = p.parts ++ parts := rfl

/-- A child comes first on the way further down. -/
theorem child_below (p : Path) (name : String) (parts : List String) :
    (p.child name).below parts = p.below (name :: parts) := by simp [below, child]

theorem toString_of_isAbsolute {p : Path} (h : p.isAbsolute = true) :
    p.toString = p.anchor.text ++ Text.join "/" p.parts := by
  obtain ⟨anchor, parts⟩ := p
  cases anchor with
  | here => exact nomatch h
  | root | doubleRoot => rfl

theorem mem_anchor_text {anchor : Anchor} {c : Char} (h : c ∈ anchor.text.toList) : c = '/' := by
  cases anchor <;> simp_all [Anchor.text]

/-- The text of a path from a root is made of slashes and the characters of its components. -/
theorem mem_toString {p : Path} {c : Char} (habs : p.isAbsolute = true) (h : c ∈ p.toString.toList) :
    c = '/' ∨ ∃ q ∈ p.parts, c ∈ q.toList := by
  rw [toString_of_isAbsolute habs, String.toList_append, List.mem_append] at h
  rcases h with h | h
  · exact .inl (mem_anchor_text h)
  · rcases Text.mem_join h with h | h
    · exact .inl (by simpa using h)
    · exact .inr h

/-- One more component adds its characters and a slash to the text of a path. -/
theorem mem_toString_child {p : Path} {name : String} {c : Char} (h : c ∈ (p.child name).toString.toList) :
    c = '/' ∨ c ∈ p.toString.toList ∨ c ∈ name.toList := by
  have htext : (p.child name).toString = p.anchor.text ++ Text.join "/" (p.parts ++ [name]) := by
    simp [toString, child]
  rw [htext, String.toList_append, List.mem_append] at h
  rcases h with h | h
  · exact .inl (mem_anchor_text h)
  · rcases Text.mem_join h with h | ⟨q, hq, hc⟩
    · exact .inl (by simpa using h)
    · rcases List.mem_append.mp hq with hq | hq
      · have hown : p.toString = p.anchor.text ++ Text.join "/" p.parts := by
          simp [toString, List.ne_nil_of_mem hq]
        rw [hown, String.toList_append, List.mem_append]
        exact .inr (.inl (.inr (Text.mem_join_of_mem hq hc)))
      · obtain rfl := List.mem_singleton.mp hq
        exact .inr (.inr hc)

/-- Components that can be written are not joined to a text that begins with a slash. -/
theorem join_ne_slash_cons {parts : List String} (h : Writable parts) (hne : ∀ p ∈ parts, p ≠ "")
    (cs : List Char) : (Text.join "/" parts).toList ≠ '/' :: cs := by
  intro hjoin
  cases parts with
  | nil => simp [Text.join] at hjoin
  | cons p rest =>
      have hp : p.toList ≠ [] := by simpa using hne p List.mem_cons_self
      obtain ⟨d, ds, hds⟩ := List.exists_cons_of_ne_nil hp
      have hhead : '/' = d := by
        cases rest with
        | nil =>
            rw [show Text.join "/" [p] = p from rfl, hds] at hjoin
            exact (List.cons.inj hjoin).1.symm
        | cons q rest =>
            rw [Text.join_cons_cons, String.toList_append, String.toList_append, hds] at hjoin
            exact (List.cons.inj hjoin).1.symm
      exact h p List.mem_cons_self (by rw [hds, ← hhead]; simp)

/-- The anchor of a path from a root comes back from its text: no component adds a slash to it. -/
theorem anchorOf_toString {p : Path} (habs : p.isAbsolute = true) (h : Writable p.parts)
    (hne : ∀ c ∈ p.parts, c ≠ "") : anchorOf p.toString.toList = p.anchor := by
  have hslash := join_ne_slash_cons h hne
  rw [toString_of_isAbsolute habs]
  obtain ⟨anchor, parts⟩ := p
  cases anchor with
  | here => exact nomatch habs
  | root =>
      rw [show Anchor.root.text = "/" from rfl, String.toList_append]
      show anchorOf ('/' :: (Text.join "/" parts).toList) = .root
      unfold anchorOf
      split
      · rfl
      · next heq => exact absurd (List.cons.inj heq).2 (hslash _)
      · rfl
      · next hroot => exact absurd rfl (hroot _)
  | doubleRoot =>
      rw [show Anchor.doubleRoot.text = "//" from rfl, String.toList_append]
      show anchorOf ('/' :: '/' :: (Text.join "/" parts).toList) = .doubleRoot
      unfold anchorOf
      split
      · next heq => exact absurd (List.cons.inj (List.cons.inj heq).2).2 (hslash _)
      · rfl
      · next hdouble heq => exact absurd (List.cons.inj heq).2.symm (hdouble _)
      · next hdouble _ => exact absurd rfl (hdouble _)

/-- **Round trip.** A path from a root comes back from its text. -/
theorem ofString_toString {p : Path} (habs : p.isAbsolute = true) (h : Writable p.parts)
    (hnames : ∀ c ∈ p.parts, c ≠ "" ∧ c ≠ ".") : ofString p.toString = p := by
  have hanchor := anchorOf_toString habs h fun c hc => (hnames c hc).1
  have hparts : partsOf p.toString = p.parts := by
    have hkeep := counted_eq_self hnames
    rw [toString_of_isAbsolute habs]
    obtain ⟨anchor, parts⟩ := p
    -- the anchor is written as one empty piece for each slash
    cases anchor with
    | here => exact nomatch habs
    | root =>
        cases parts with
        | nil => rfl
        | cons c rest =>
            have hsplit : Text.splitOn '/' ("/" ++ Text.join "/" (c :: rest)) = "" :: c :: rest :=
              @Text.splitOn_join '/' ("" :: c :: rest) (List.forall_mem_cons.mpr ⟨by simp, h⟩) (by simp)
            rw [partsOf, show Anchor.root.text = "/" from rfl, hsplit, counted, List.filter_cons_of_neg (by simp)]
            exact hkeep
    | doubleRoot =>
        cases parts with
        | nil => decide +kernel
        | cons c rest =>
            have hblank : '/' ∉ "".toList := by simp
            have hwritable : Writable ("" :: "" :: c :: rest) :=
              List.forall_mem_cons.mpr ⟨hblank, List.forall_mem_cons.mpr ⟨hblank, h⟩⟩
            have hjoin : "//" ++ Text.join "/" (c :: rest) = Text.join "/" ("" :: "" :: c :: rest) := by
              rw [Text.join_cons_cons, Text.join_cons_cons]
              simp [← String.append_assoc]
            have hsplit : Text.splitOn '/' (Text.join "/" ("" :: "" :: c :: rest)) = "" :: "" :: c :: rest :=
              Text.splitOn_join hwritable (by simp)
            rw [partsOf, show Anchor.doubleRoot.text = "//" from rfl, hjoin, hsplit, counted,
              List.filter_cons_of_neg (by simp), List.filter_cons_of_neg (by simp)]
            exact hkeep
  rw [ofString, hanchor, hparts]

/-- Names without an anchor come back from their text. -/
theorem ofString_relativeText {parts : List String} (h : Writable parts)
    (hnames : ∀ p ∈ parts, p ≠ "" ∧ p ≠ ".") (hne : parts ≠ []) :
    ofString (relativeText parts) = ⟨.here, parts⟩ := by
  have hanchor : anchorOf (relativeText parts).toList = .here := by
    have hslash := join_ne_slash_cons h fun p hp => (hnames p hp).1
    rw [relativeText_eq_join hne]
    unfold anchorOf
    split
    · next heq => exact absurd heq (hslash _)
    · next heq => exact absurd heq (hslash _)
    · next heq => exact absurd heq (hslash _)
    · rfl
  have hparts : partsOf (relativeText parts) = parts := by
    rw [partsOf, splitOn_relativeText h hne, counted_eq_self hnames]
  rw [ofString, hanchor, hparts]

theorem ofString_name {name : String} (hslash : '/' ∉ name.toList) (hname : name ≠ "" ∧ name ≠ ".") :
    ofString name = ⟨.here, [name]⟩ := by
  have htext : relativeText [name] = name := by
    rw [relativeText_eq_join (List.cons_ne_nil _ _)]
    rfl
  have hread : ofString (relativeText [name]) = ⟨.here, [name]⟩ :=
    ofString_relativeText (List.forall_mem_singleton.mpr hslash) (List.forall_mem_singleton.mpr hname)
      (List.cons_ne_nil _ _)
  rwa [htext] at hread

/-! ## Lying below a base -/

theorem begins_iff {base parts : List String} :
    begins base parts = true ↔ ∃ rest, parts = base ++ rest := by
  induction base generalizing parts with
  | nil => simp [begins]
  | cons a as ih =>
      cases parts with
      | nil => simp [begins]
      | cons b bs =>
          simp only [begins, Bool.and_eq_true, beq_iff_eq, ih, List.cons_append, List.cons.injEq]
          constructor
          · rintro ⟨rfl, rest, rfl⟩
            exact ⟨rest, rfl, rfl⟩
          · rintro ⟨rest, rfl, rfl⟩
            exact ⟨rfl, rest, rfl⟩

/-- The components that lead from a base to a path are what the path has beyond the base. -/
theorem relativeTo?_eq_some {p base : Path} {parts : List String} :
    p.relativeTo? base = some parts ↔ p.anchor = base.anchor ∧ p.parts = base.parts ++ parts := by
  unfold relativeTo? isWithin
  constructor
  · intro h
    split at h
    · next hin =>
      rw [Bool.and_eq_true, beq_iff_eq, begins_iff] at hin
      obtain ⟨hanchor, rest, hrest⟩ := hin
      refine ⟨hanchor, ?_⟩
      rw [Option.some.injEq] at h
      rw [← h, hrest, List.drop_left]
    · simp at h
  · rintro ⟨hanchor, hparts⟩
    have hin : begins base.parts p.parts = true := begins_iff.mpr ⟨parts, hparts⟩
    rw [hin, hanchor, hparts]
    simp

/-! ## Directories above a path -/

/-- The path without its last component. -/
def parent (p : Path) : Path := ⟨p.anchor, p.parts.dropLast⟩

/-- A path is a root alone, or lies in the path above it. -/
@[elab_as_elim]
theorem child_induction {motive : Path → Prop} (root : ∀ anchor, motive ⟨anchor, []⟩)
    (child : ∀ p name, motive p → motive (p.child name)) (p : Path) : motive p := by
  obtain ⟨anchor, parts⟩ := p
  induction parts using List.reverseRecOn with
  | nil => exact root anchor
  | append_singleton parts name ih => exact child ⟨anchor, parts⟩ name ih

variable {p q r : Path} {name : String}

theorem isWithin_iff : p.isWithin q = true ↔ p.anchor = q.anchor ∧ q.parts <+: p.parts := by
  rw [isWithin, Bool.and_eq_true, beq_iff_eq, begins_iff]
  exact and_congr_right fun _ => exists_congr fun _ => eq_comm

theorem isWithin_self (p : Path) : p.isWithin p = true := isWithin_iff.mpr ⟨rfl, List.prefix_rfl⟩

theorem isWithin_trans (hpq : p.isWithin q = true) (hqr : q.isWithin r = true) : p.isWithin r = true := by
  obtain ⟨hpq, hqp⟩ := isWithin_iff.mp hpq
  obtain ⟨hqr, hrq⟩ := isWithin_iff.mp hqr
  exact isWithin_iff.mpr ⟨hpq.trans hqr, hrq.trans hqp⟩

theorem isWithin_antisymm (hpq : p.isWithin q = true) (hqp : q.isWithin p = true) : p = q := by
  obtain ⟨anchor, parts⟩ := p
  obtain ⟨hanchor, hbelow⟩ := isWithin_iff.mp hpq
  obtain ⟨-, habove⟩ := isWithin_iff.mp hqp
  have hparts : q.parts = parts := hbelow.eq_of_length (Nat.le_antisymm hbelow.length_le habove.length_le)
  obtain rfl : anchor = q.anchor := hanchor
  rw [← hparts]

theorem isWithin_nil {anchor : Anchor} : (⟨anchor, []⟩ : Path).isWithin q = true ↔ q = ⟨anchor, []⟩ := by
  constructor
  · intro h
    obtain ⟨hanchor, hparts⟩ := isWithin_iff.mp h
    obtain ⟨other, parts⟩ := q
    obtain rfl : parts = [] := List.prefix_nil.mp hparts
    rw [show anchor = other from hanchor]
  · rintro rfl
    exact isWithin_self _

/-- What lies at or above a path is the path itself, or lies at or above its parent. -/
theorem isWithin_child : (p.child name).isWithin q = true ↔ q = p.child name ∨ p.isWithin q = true := by
  constructor
  · intro h
    obtain ⟨hanchor, hparts⟩ := isWithin_iff.mp h
    rcases List.prefix_concat_iff.mp hparts with hself | habove
    · left
      obtain ⟨anchor, parts⟩ := q
      rw [child, ← hself, show p.anchor = anchor from hanchor]
    · exact .inr (isWithin_iff.mpr ⟨hanchor, habove⟩)
  · rintro (rfl | h)
    · exact isWithin_self _
    · obtain ⟨hanchor, hparts⟩ := isWithin_iff.mp h
      exact isWithin_iff.mpr ⟨hanchor, hparts.trans (List.prefix_append _ _)⟩

theorem not_isWithin_child : p.isWithin (p.child name) ≠ true := by
  intro h
  have hlength := (isWithin_iff.mp h).2.length_le
  rw [child, List.length_append, List.length_singleton] at hlength
  omega

/-- Of two directories above one path, one lies above the other. -/
theorem isWithin_total (hq : p.isWithin q = true) (hr : p.isWithin r = true) :
    q.isWithin r = true ∨ r.isWithin q = true := by
  obtain ⟨hqanchor, hqparts⟩ := isWithin_iff.mp hq
  obtain ⟨hranchor, hrparts⟩ := isWithin_iff.mp hr
  have hanchor : q.anchor = r.anchor := hqanchor.symm.trans hranchor
  rcases List.prefix_or_prefix_of_prefix hqparts hrparts with h | h
  · exact .inr (isWithin_iff.mpr ⟨hanchor.symm, h⟩)
  · exact .inl (isWithin_iff.mpr ⟨hanchor, h⟩)

end Path

end Assay.Files

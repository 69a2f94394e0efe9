import Mathlib.Data.Sym.Sym2
import Assay.Correlate

/-!
# Candidates

A pair of issues is a candidate if there is a reason to think of one defect: the issues share a key, lie near
to each other, or share a pattern. What a reason says does not depend on which issue comes first
(`CorrelationReason.holds_comm`), so neither does the strongest one (`mayCorrelate_comm`). The main result,
`correlationCandidates_spec`, says that the candidates of a list are all pairs with a reason, each once and in
order, and that a list in another order has the same ones.
-/

namespace Assay

variable {a b : Issue} {r : CorrelationReason}

/-! ## Reasons -/

namespace CorrelationReason

/-- What a reason says about two issues. -/
def Holds (a b : Issue) : CorrelationReason → Prop
  | sameKey => a.correlationKey ≠ "" ∧ a.correlationKey = b.correlationKey
  | proximity => a.canonicalPath = b.canonicalPath ∧
      ∀ i ∈ [a, b], ((a.startLine - b.startLine).natAbs : Int) ≤ i.correlationHints.searchRadius.lines
  | sharedPattern => ∃ pattern, pattern ∈ a.crossToolPatterns ∧ pattern ∈ b.crossToolPatterns

/-- The place among the reasons; larger is stronger. -/
def strength : CorrelationReason → Nat
  | sharedPattern => 0
  | proximity => 1
  | sameKey => 2

/-- The reason holds of two issues, and none that holds of them is stronger. -/
structure IsStrongest (a b : Issue) (r : CorrelationReason) : Prop where
  holds : r.Holds a b
  strength_le : ∀ other : CorrelationReason, other.Holds a b → other.strength ≤ r.strength

theorem strength_injective : Function.Injective strength := by
  intro r s h
  cases r <;> cases s <;> simp [strength] at h ⊢

/-- Two issues have only one strongest reason. -/
theorem IsStrongest.unique {s : CorrelationReason} (hr : r.IsStrongest a b) (hs : s.IsStrongest a b) : r = s :=
  strength_injective (Nat.le_antisymm (hs.strength_le r hr.holds) (hr.strength_le s hs.holds))

theorem sameKey_holds : (!a.correlationKey.isEmpty && a.correlationKey == b.correlationKey) = true ↔
    sameKey.Holds a b := by
  simp [Holds]

theorem proximity_holds : areNear a b = true ↔ proximity.Holds a b := by
  simp [areNear, Holds]

theorem sharedPattern_holds : a.crossToolPatterns.any b.crossToolPatterns.contains = true ↔
    sharedPattern.Holds a b := by
  simp [Holds]

/-- **What a reason says** does not depend on which issue comes first. -/
theorem holds_comm : r.Holds a b ↔ r.Holds b a := by
  have hturn (a b : Issue) (h : r.Holds a b) : r.Holds b a := by
    cases r with
    | sameKey =>
        obtain ⟨hne, heq⟩ := h
        exact ⟨heq ▸ hne, heq.symm⟩
    | proximity =>
        obtain ⟨hpath, hnear⟩ := h
        refine ⟨hpath.symm, fun i hi => ?_⟩
        have hle := hnear i (by simpa [or_comm] using hi)
        omega
    | sharedPattern =>
        obtain ⟨pattern, ha, hb⟩ := h
        exact ⟨pattern, hb, ha⟩
  exact ⟨hturn a b, hturn b a⟩

theorem isStrongest_comm : r.IsStrongest a b ↔ r.IsStrongest b a := by
  have hturn (a b : Issue) (h : r.IsStrongest a b) : r.IsStrongest b a :=
    ⟨holds_comm.mp h.holds, fun other hother => h.strength_le other (holds_comm.mp hother)⟩
  exact ⟨hturn a b, hturn b a⟩

end CorrelationReason

open CorrelationReason

/-- **The strongest reason is found**, if there is any. -/
theorem mayCorrelate_eq_some : mayCorrelate a b = some r ↔ r.IsStrongest a b := by
  -- the conditions are tried from the strongest one on, so each later one is met without those before it
  have hfound {s : CorrelationReason} (hs : s.IsStrongest a b) : some s = some r ↔ r.IsStrongest a b := by
    rw [Option.some_inj]
    exact ⟨fun h => h ▸ hs, hs.unique⟩
  unfold mayCorrelate
  split
  · next hkey =>
    refine hfound ⟨sameKey_holds.mp hkey, fun other _ => ?_⟩
    cases other <;> decide
  · next hkey =>
    rw [sameKey_holds] at hkey
    split
    · next hnear =>
      refine hfound ⟨proximity_holds.mp hnear, fun other hother => ?_⟩
      cases other with
      | sameKey => exact absurd hother hkey
      | proximity | sharedPattern => decide
    · next hnear =>
      rw [proximity_holds] at hnear
      split
      · next hshared =>
        refine hfound ⟨sharedPattern_holds.mp hshared, fun other hother => ?_⟩
        cases other with
        | sameKey => exact absurd hother hkey
        | proximity => exact absurd hother hnear
        | sharedPattern => decide
      · next hshared =>
        rw [sharedPattern_holds] at hshared
        refine iff_of_false nofun fun h => ?_
        cases r with
        | sameKey => exact hkey h.holds
        | proximity => exact hnear h.holds
        | sharedPattern => exact hshared h.holds

theorem mayCorrelate_comm (a b : Issue) : mayCorrelate a b = mayCorrelate b a := by
  ext r
  rw [mayCorrelate_eq_some, mayCorrelate_eq_some, isStrongest_comm]

/-! ## Pairs -/

/-- The pair is a candidate for a reason. With the flag, issues of one tool are none. -/
structure Suggests (crossToolOnly : Bool) (a b : Issue) (r : CorrelationReason) : Prop where
  tools : crossToolOnly = true → a.toolName ≠ b.toolName
  strongest : r.IsStrongest a b

/-- The candidate that two issues make up. -/
def candidateOf (crossToolOnly : Bool) (a b : Issue) : Option Candidate :=
  if crossToolOnly && a.toolName == b.toolName then none
  else (mayCorrelate a b).map fun reason => ⟨a, b, reason⟩

variable {crossToolOnly : Bool} {c : Candidate} {issues later : List Issue}

theorem candidateOf_eq_some : candidateOf crossToolOnly a b = some c ↔
    c.first = a ∧ c.second = b ∧ Suggests crossToolOnly a b c.reason := by
  unfold candidateOf
  split
  · next hsame =>
    rw [Bool.and_eq_true, beq_iff_eq] at hsame
    refine iff_of_false nofun ?_
    rintro ⟨-, -, h⟩
    exact h.tools hsame.1 hsame.2
  · next hother =>
    rw [Bool.and_eq_true, beq_iff_eq, not_and] at hother
    rw [Option.map_eq_some_iff]
    constructor
    · rintro ⟨r, hr, rfl⟩
      exact ⟨rfl, rfl, hother, mayCorrelate_eq_some.mp hr⟩
    · rintro ⟨rfl, rfl, h⟩
      exact ⟨c.reason, mayCorrelate_eq_some.mpr h.strongest, rfl⟩

theorem exists_candidateOf : (∃ c, candidateOf crossToolOnly a b = some c) ↔ ∃ r, Suggests crossToolOnly a b r := by
  simp only [candidateOf_eq_some]
  exact ⟨fun ⟨c, _, _, h⟩ => ⟨c.reason, h⟩, fun ⟨r, h⟩ => ⟨⟨a, b, r⟩, rfl, rfl, h⟩⟩

theorem candidatesWith_eq (crossToolOnly : Bool) (a : Issue) (later : List Issue) :
    candidatesWith crossToolOnly a later = later.filterMap (candidateOf crossToolOnly a) := rfl

theorem candidatesWith_cons (crossToolOnly : Bool) (a b : Issue) (later : List Issue) :
    candidatesWith crossToolOnly a (b :: later) =
      (candidateOf crossToolOnly a b).toList ++ candidatesWith crossToolOnly a later := by
  rw [candidatesWith_eq, candidatesWith_eq, List.filterMap_cons]
  cases candidateOf crossToolOnly a b <;> rfl

/-! ## Places -/

/-- What is chosen of a list, and what is made of it, comes from some of its places, each once and in order. -/
theorem exists_places {α β : Type} (choose : α → Option β) (items : List α) :
    ∃ places : List Nat, places.Pairwise (· < ·) ∧
      (∀ j, j ∈ places ↔ ∃ item made, items[j]? = some item ∧ choose item = some made) ∧
      List.Forall₂ (fun j made => ∃ item, items[j]? = some item ∧ choose item = some made) places
        (items.filterMap choose) := by
  induction items with
  | nil => exact ⟨[], .nil, by simp, .nil⟩
  | cons item items ih =>
      obtain ⟨places, hordered, hplaces, hmade⟩ := ih
      have hshifted : (places.map (· + 1)).Pairwise (· < ·) :=
        hordered.map _ fun i j hij => Nat.succ_lt_succ hij
      have hlater : List.Forall₂ (fun j made => ∃ x, (item :: items)[j]? = some x ∧ choose x = some made)
          (places.map (· + 1)) (items.filterMap choose) := by
        simpa using hmade
      cases hfirst : choose item with
      | none =>
          rw [List.filterMap_cons_none hfirst]
          refine ⟨places.map (· + 1), hshifted, fun j => ?_, hlater⟩
          cases j with
          | zero => simp [hfirst]
          | succ j => simp [hplaces]
      | some made =>
          rw [List.filterMap_cons_some hfirst]
          refine ⟨0 :: places.map (· + 1), ?_, fun j => ?_, .cons ⟨item, rfl, hfirst⟩ hlater⟩
          · rw [List.pairwise_cons]
            exact ⟨by simp, hshifted⟩
          · cases j with
            | zero => simp [hfirst]
            | succ j => simp [hplaces]

/-- The candidates are those of a list: they come from the pairs of places that have a reason, each once and
in order. -/
structure IsListing (crossToolOnly : Bool) (issues : List Issue) (places : List (Nat × Nat))
    (candidates : List Candidate) : Prop where
  ordered : places.Pairwise (Prod.Lex (· < ·) (· < ·))
  complete : ∀ i j, (i, j) ∈ places ↔
    i < j ∧ ∃ a b r, issues[i]? = some a ∧ issues[j]? = some b ∧ Suggests crossToolOnly a b r
  told : List.Forall₂ (fun place c => issues[place.1]? = some c.first ∧ issues[place.2]? = some c.second ∧
    Suggests crossToolOnly c.first c.second c.reason) places candidates

theorem exists_isListing (crossToolOnly : Bool) (issues : List Issue) :
    ∃ places, IsListing crossToolOnly issues places (correlationCandidates crossToolOnly issues) := by
  induction issues with
  | nil => exact ⟨[], .nil, by simp, .nil⟩
  | cons a rest ih =>
      obtain ⟨pairs, hpairs⟩ := ih
      obtain ⟨row, hordered, hrow, htold⟩ := exists_places (candidateOf crossToolOnly a) rest
      refine ⟨row.map (fun j => (0, j + 1)) ++ pairs.map fun p => (p.1 + 1, p.2 + 1), ?_, fun i j => ?_, ?_⟩
      · rw [List.pairwise_append]
        refine ⟨hordered.map _ fun i j hij => .right _ (Nat.succ_lt_succ hij), hpairs.ordered.map _ ?_, ?_⟩
        · rintro p q (⟨_, _, h⟩ | ⟨_, h⟩)
          · exact .left _ _ (Nat.succ_lt_succ h)
          · exact .right _ (Nat.succ_lt_succ h)
        · intro p hp q hq
          obtain ⟨j, -, rfl⟩ := List.mem_map.mp hp
          obtain ⟨q, -, rfl⟩ := List.mem_map.mp hq
          exact .left _ _ (Nat.succ_pos _)
      · -- a pair is one of the first issue and a later one, or one of two later issues
        have hfirst : ∀ j, j ∈ row ↔ ∃ b r, rest[j]? = some b ∧ Suggests crossToolOnly a b r := by
          intro j
          rw [hrow]
          simp only [exists_and_left, exists_candidateOf]
        cases i with
        | zero =>
            cases j with
            | zero => simp
            | succ j => simp [hfirst]
        | succ i =>
            cases j with
            | zero => simp
            | succ j => simp [hpairs.complete]
      · refine List.rel_append ?_ ?_
        · rw [List.forall₂_map_left_iff]
          refine htold.imp ?_
          rintro j c ⟨b, hb, hc⟩
          obtain ⟨rfl, rfl, h⟩ := candidateOf_eq_some.mp hc
          exact ⟨rfl, hb, h⟩
        · rw [List.forall₂_map_left_iff]
          exact hpairs.told

/-! ## Other orders -/

/-- What a candidate says, whichever of its issues comes first. -/
def Candidate.unordered (c : Candidate) : Sym2 Issue × CorrelationReason := (s(c.first, c.second), c.reason)

theorem map_unordered_candidateOf (crossToolOnly : Bool) (a b : Issue) :
    (candidateOf crossToolOnly a b).map Candidate.unordered =
      (candidateOf crossToolOnly b a).map Candidate.unordered := by
  unfold candidateOf
  rw [mayCorrelate_comm a b, Bool.beq_comm (a := a.toolName)]
  split
  · rfl
  · simp [Candidate.unordered, Function.comp_def, Sym2.eq_swap]

/-- **A list in another order** has the same candidates. -/
theorem perm_candidates {issues issues' : List Issue} (h : issues.Perm issues') :
    ((correlationCandidates crossToolOnly issues).map Candidate.unordered).Perm
      ((correlationCandidates crossToolOnly issues').map Candidate.unordered) := by
  induction h with
  | nil => exact .nil
  | cons a h ih =>
      rw [correlationCandidates, correlationCandidates, List.map_append, List.map_append]
      exact ((h.filterMap _).map _).append ih
  | swap a b rest =>
      -- the pair of the two is the same from both sides, and their rows change places
      simp only [correlationCandidates, candidatesWith_cons, List.map_append, List.append_assoc,
        ← Option.toList_map]
      rw [map_unordered_candidateOf crossToolOnly b a]
      exact (List.perm_append_comm_assoc _ _ _).append_left _
  | trans _ _ ih ih' => exact ih.trans ih'

/-- **Candidates** come from all pairs of places that have a reason, each once and in order, and carry the
strongest reason. A list in another order has the same candidates, each as often, up to which issue of a pair
comes first. -/
theorem correlationCandidates_spec (crossToolOnly : Bool) (issues : List Issue) :
    (∀ a b r, mayCorrelate a b = some r ↔ r.IsStrongest a b) ∧
    (∃ places, IsListing crossToolOnly issues places (correlationCandidates crossToolOnly issues)) ∧
    ∀ issues', issues.Perm issues' →
      ((correlationCandidates crossToolOnly issues).map Candidate.unordered).Perm
        ((correlationCandidates crossToolOnly issues').map Candidate.unordered) :=
  ⟨fun _ _ _ => mayCorrelate_eq_some, exists_isListing crossToolOnly issues, fun _ => perm_candidates⟩

/-- An issue of a tool at a line of one file. -/
def foundBy (tool : String) (line : Int) : Issue :=
  { (default : Issue) with toolName := tool, canonicalPath := "src/app.py", startLine := line }

/-- Of three issues in one file two lie near to each other. They are the only candidates, also when the issues
come the other way round. -/
theorem correlationCandidates_reverse :
    let near := foundBy "pylint" 3
    let other := foundBy "mypy" 6
    let far := foundBy "mypy" 20
    correlationCandidates true [near, other, far] = [⟨near, other, .proximity⟩] ∧
      (correlationCandidates true [far, other, near]).map Candidate.unordered = [(s(other, near), .proximity)] := by
  intro near other far
  have hlisted : correlationCandidates true [near, other, far] = [⟨near, other, .proximity⟩] := by decide +kernel
  have hperm : [near, other, far].Perm [far, other, near] := List.reverse_perm [far, other, near]
  obtain ⟨-, -, hsame⟩ := correlationCandidates_spec true [near, other, far]
  have hturned := hsame _ hperm
  rw [hlisted] at hturned
  refine ⟨hlisted, (List.singleton_perm.mp hturned).symm.trans ?_⟩
  rw [Candidate.unordered, Sym2.eq_swap]

end Assay

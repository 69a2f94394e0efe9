import Assay.Proofs.Files.Lookup
import Assay.Proofs.Files.Resolve

/-!
# Following a path

What the resolution of a path is meant to be: its components are followed one by one, and where a link
stands, the components of its target are followed in its place. The relation `Tree.Follows` says where
that ends, and through how many links; a path that runs into a loop ends nowhere. There is at most one
such end (`Follows.unique`), and no link stands on the way to it (`Follows.isReal`).
-/

namespace Assay.Files

instance : DecidablePred IsName := fun _ => inferInstanceAs (Decidable (_ ∧ _ ∧ _))

namespace Tree

/-- The place that the target of a link is followed from, the link being an entry of `here`. -/
def linkStart (here : Place) (target : String) : Place :=
  if Text.hasStart "/" target then [] else here

/-- Following the components from a place leads to the last place, through so many links. What does not
exist is followed by its names. -/
inductive Follows (t : Tree) : Nat → Place → List String → Place → Prop
  | done {here : Place} : Follows t 0 here [] here
  | skip {n : Nat} {here place : Place} {name : String} {rest : List String}
      (hname : name = "" ∨ name = ".") (h : Follows t n here rest place) :
      Follows t n here (name :: rest) place
  | up {n : Nat} {here place : Place} {rest : List String}
      (h : Follows t n here.dropLast rest place) : Follows t n here (".." :: rest) place
  | down {n : Nat} {here place : Place} {name : String} {rest : List String} (hname : IsName name)
      (hnone : t.target? (here ++ [name]) = none) (h : Follows t n (here ++ [name]) rest place) :
      Follows t n here (name :: rest) place
  | link {m n : Nat} {here middle place : Place} {name target : String} {rest : List String}
      (hname : IsName name) (hfits : Fits (here ++ [name]))
      (htarget : t.target? (here ++ [name]) = some target)
      (hlink : Follows t m (linkStart here target) (Text.splitOn '/' target) middle)
      (h : Follows t n middle rest place) : Follows t (m + n + 1) here (name :: rest) place

variable {t : Tree} {m n : Nat} {here place : Place} {rest : List String}

theorem not_isName {name : String} (h : name = "" ∨ name = ".") : ¬ IsName name ∧ name ≠ ".." := by
  rcases h with rfl | rfl
  · exact ⟨fun h => h.1 rfl, by decide⟩
  · exact ⟨fun h => h.2.1 rfl, by decide⟩

theorem not_isName_dots : ¬ IsName ".." := fun h => h.2.2 rfl

/-- **A path ends at one place only**, through one number of links only. -/
theorem Follows.unique {p q : Place} (hp : t.Follows m here rest p) (hq : t.Follows n here rest q) :
    m = n ∧ p = q := by
  induction hp generalizing n q with
  -- what is left to follow determines the step, so only equal steps are compared
  | done =>
      cases hq
      exact ⟨rfl, rfl⟩
  | skip hname _ ih =>
      cases hq with
      | skip _ hq => exact ih hq
      | up hq => exact absurd rfl (not_isName hname).2
      | down h => exact absurd h (not_isName hname).1
      | link h => exact absurd h (not_isName hname).1
  | up _ ih =>
      cases hq with
      | skip h => exact absurd rfl (not_isName h).2
      | up hq => exact ih hq
      | down h => exact absurd h not_isName_dots
      | link h => exact absurd h not_isName_dots
  | down hname hnone _ ih =>
      cases hq with
      | skip h => exact absurd hname (not_isName h).1
      | up hq => exact absurd hname not_isName_dots
      | down _ _ hq => exact ih hq
      | link _ _ htarget => rw [hnone] at htarget; simp at htarget
  | link hname _ htarget _ _ ihLink ih =>
      cases hq with
      | skip h => exact absurd hname (not_isName h).1
      | up hq => exact absurd hname not_isName_dots
      | down _ hnone => rw [hnone] at htarget; simp at htarget
      | link _ _ htarget' hlink' hq =>
          obtain rfl := Option.some.inj (htarget.symm.trans htarget')
          obtain ⟨rfl, rfl⟩ := ihLink hlink'
          obtain ⟨rfl, rfl⟩ := ih hq
          exact ⟨rfl, rfl⟩

/-- What holds of all components where a path starts and of those that are followed, its own and those
of targets, holds of all components where it ends. -/
theorem Follows.forall_mem {P : String → Prop} (h : t.Follows n here rest place)
    (htargets : ∀ q target, t.target? q = some target → ∀ c ∈ Text.splitOn '/' target, IsName c → P c)
    (hhere : ∀ c ∈ here, P c) (hrest : ∀ c ∈ rest, IsName c → P c) : ∀ c ∈ place, P c := by
  induction h with
  | done => exact hhere
  | skip _ _ ih => exact ih hhere fun c hc => hrest c (List.mem_cons_of_mem _ hc)
  | up _ ih =>
      apply ih
      · exact fun c hc => hhere c (List.dropLast_subset _ hc)
      · exact fun c hc => hrest c (List.mem_cons_of_mem _ hc)
  | down hname _ _ ih =>
      apply ih
      · intro c hc
        rcases List.mem_append.mp hc with hc | hc
        · exact hhere c hc
        · rw [List.mem_singleton] at hc
          exact hc ▸ hrest _ List.mem_cons_self hname
      · exact fun c hc => hrest c (List.mem_cons_of_mem _ hc)
  | link _ _ htarget _ _ ihLink ih =>
      apply ih
      · apply ihLink
        · unfold linkStart
          split
          · simp
          · exact hhere
        · exact htargets _ _ htarget
      · exact fun c hc => hrest c (List.mem_cons_of_mem _ hc)

/-! ## Real places -/

/-- A place that is its own resolution: its components are names, and no link stands on the way. -/
structure IsReal (t : Tree) (place : Place) : Prop where
  names : ∀ c ∈ place, IsName c
  linkFree : t.LinkFree place

theorem IsSound.isReal_nil (hsound : t.IsSound) : t.IsReal [] := ⟨by simp, hsound.linkFree_nil⟩

theorem IsReal.dots {place : Place} (h : t.IsReal place) : ".." ∉ place :=
  fun hmem => not_isName_dots (h.names _ hmem)

theorem IsReal.dropLast (h : t.IsReal here) : t.IsReal here.dropLast :=
  ⟨fun c hc => h.names c (List.dropLast_subset _ hc), h.linkFree.before (List.dropLast_prefix _)⟩

theorem IsReal.snoc {name : String} (h : t.IsReal here) (hname : IsName name)
    (hnone : t.target? (here ++ [name]) = none) : t.IsReal (here ++ [name]) := by
  refine ⟨?_, h.linkFree.snoc hnone⟩
  intro c hc
  rcases List.mem_append.mp hc with hc | hc
  · exact h.names c hc
  · exact List.mem_singleton.mp hc ▸ hname

theorem IsReal.linkStart (h : t.IsReal here) (hsound : t.IsSound) (target : String) :
    t.IsReal (Tree.linkStart here target) := by
  unfold Tree.linkStart
  split
  · exact hsound.isReal_nil
  · exact h

/-- What stands in a sound tree and is no link stands at a real place. -/
theorem IsSound.isReal_of_no_link (hsound : t.IsSound) {place : Place} {n : Node}
    (hn : t.top.at? place = some n) (hlink : t.target? place = none) : t.IsReal place := by
  constructor
  · intro c hc
    obtain ⟨hne, hdot, hdots, -⟩ := isEntryName_iff.mp ((Node.isSound_of_at? hsound.top hn).2 c hc)
    exact ⟨hne, hdot, hdots⟩
  · rintro before ⟨after, rfl⟩
    cases after with
    | nil => rwa [List.append_nil] at hlink
    | cons name after => exact target?_eq_none_of_at? hn

/-- What a sound tree holds as a directory is a real place. -/
theorem IsSound.isReal_of_at? (hsound : t.IsSound) {entries : List (String × Node)}
    (h : t.top.at? here = some (.directory entries)) : t.IsReal here :=
  hsound.isReal_of_no_link h (by rw [target?, h]; rfl)

/-- **A path ends at a real place** if it starts from one. -/
theorem Follows.isReal (h : t.Follows n here rest place) (hsound : t.IsSound)
    (hhere : t.IsReal here) : t.IsReal place := by
  induction h with
  | done => exact hhere
  | skip _ _ ih => exact ih hhere
  | up _ ih => exact ih hhere.dropLast
  | down hname hnone _ ih => exact ih (hhere.snoc hname hnone)
  | link _ _ _ _ _ ihLink ih => exact ih (ihLink (hhere.linkStart hsound _))

/-- What follows a place to a real one is followed as it stands. -/
theorem follows_of_isReal (h : t.IsReal (here ++ rest)) : t.Follows 0 here rest (here ++ rest) := by
  induction rest generalizing here with
  | nil =>
      rw [List.append_nil]
      exact .done
  | cons name rest ih =>
      have hsplit : here ++ name :: rest = (here ++ [name]) ++ rest := by simp
      have hname : IsName name := h.names name (by simp)
      rw [hsplit] at h ⊢
      exact .down hname (h.linkFree _ (List.prefix_append _ _)) (ih h)

end Tree

end Assay.Files

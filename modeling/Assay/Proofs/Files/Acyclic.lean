import Mathlib.Logic.Relation
import Assay.Proofs.Files.Listing
import Assay.Proofs.Files.Walk

/-!
# Trees without cycles of links

A link is part of a cycle if it is met again while its own target is being followed. Where no link is, the
walk that resolves a path never gives up (`walkDeep_of_acyclic`): every path resolves to the one place that
it leads to (`Reaches.resolve`), and what is found there stands at a real place (`isReal_of_resolve`). A
tree has no cycles if each of its links can be followed to an end (`acyclic_of_leads`). A link whose own
path is too long to be looked at counts as a plain name here, as it does for the walk.
-/

namespace Assay.Files

namespace Tree

variable {t : Tree} {here : Place} {rest : List String}

/-! ## Steps of following a path -/

/-- One step of following the components that are left from a place. -/
inductive Step (t : Tree) : Place × List String → Place × List String → Prop
  | skip {here : Place} {name : String} {rest : List String} (hname : name = "" ∨ name = ".") :
      Step t (here, name :: rest) (here, rest)
  | up {here : Place} {rest : List String} : Step t (here, ".." :: rest) (here.dropLast, rest)
  | down {here : Place} {name : String} {rest : List String} (hname : IsName name)
      (hnone : Fits (here ++ [name]) → t.target? (here ++ [name]) = none) :
      Step t (here, name :: rest) (here ++ [name], rest)
  | link {here : Place} {name target : String} {rest : List String} (hname : IsName name)
      (hfits : Fits (here ++ [name])) (htarget : t.target? (here ++ [name]) = some target) :
      Step t (here, name :: rest) (linkStart here target, Text.splitOn '/' target ++ rest)

/-- Following the target of the link at a place comes to these components, left from that place. -/
def Opens (t : Tree) (q : Place) (state : Place × List String) : Prop :=
  ∃ target, t.target? q = some target ∧
    Relation.ReflTransGen t.Step (linkStart q.dropLast target, Text.splitOn '/' target) state

/-- The link at the place is part of a cycle: following its target comes to the link itself. -/
def IsCyclic (t : Tree) (q : Place) : Prop :=
  ∃ here name rest, here ++ [name] = q ∧ t.Opens q (here, name :: rest)

/-- No link is part of a cycle. -/
def Acyclic (t : Tree) : Prop := ∀ q, ¬ t.IsCyclic q

/-- What is left after some components does not change how these are followed. -/
theorem Step.append {s s' : Place × List String} (h : t.Step s s') (rest : List String) :
    t.Step (s.1, s.2 ++ rest) (s'.1, s'.2 ++ rest) := by
  cases h with
  | skip hname => exact .skip hname
  | up => exact .up
  | down hname hnone => exact .down hname hnone
  | link hname hfits htarget =>
      rw [List.append_assoc]
      exact .link hname hfits htarget

theorem steps_append {s s' : Place × List String} (h : Relation.ReflTransGen t.Step s s')
    (rest : List String) : Relation.ReflTransGen t.Step (s.1, s.2 ++ rest) (s'.1, s'.2 ++ rest) :=
  h.lift (fun s => (s.1, s.2 ++ rest)) fun _ _ hstep => hstep.append rest

/-- **A step is determined** by what is left to follow. -/
theorem Step.unique {s s₁ s₂ : Place × List String} (h₁ : t.Step s s₁) (h₂ : t.Step s s₂) : s₁ = s₂ := by
  -- the component is skipped, leads up, or is a name, with a link behind it or not
  cases h₁ with
  | skip hname =>
      cases h₂ with
      | skip => rfl
      | up => exact absurd rfl (not_isName hname).2
      | down h => exact absurd h (not_isName hname).1
      | link h => exact absurd h (not_isName hname).1
  | up =>
      cases h₂ with
      | skip h => exact absurd rfl (not_isName h).2
      | up => rfl
      | down h => exact absurd h not_isName_dots
      | link h => exact absurd h not_isName_dots
  | down hname hnone =>
      cases h₂ with
      | skip h => exact absurd hname (not_isName h).1
      | up => exact absurd hname not_isName_dots
      | down => rfl
      | link _ hfits htarget =>
          rw [hnone hfits] at htarget
          simp at htarget
  | link hname hfits htarget =>
      cases h₂ with
      | skip h => exact absurd hname (not_isName h).1
      | up => exact absurd hname not_isName_dots
      | down _ hnone =>
          rw [hnone hfits] at htarget
          simp at htarget
      | link _ _ htarget' =>
          obtain rfl := Option.some.inj (htarget.symm.trans htarget')
          rfl

/-- Where nothing is left to follow, no step leads on. -/
theorem eq_of_steps_nil {s : Place × List String} (h : Relation.ReflTransGen t.Step (here, []) s) :
    s = (here, []) := by
  rcases h.cases_head with heq | ⟨_, hstep, -⟩
  · exact heq.symm
  · cases hstep

/-- What holds of the components of a state and of those of all targets holds of the components of every
state that its steps lead to. -/
theorem forall_mem_of_steps {P : String → Prop} {s s' : Place × List String}
    (h : Relation.ReflTransGen t.Step s s') (htargets : t.ForallTargets P)
    (hhere : ∀ c ∈ s.1, P c) (hrest : ∀ c ∈ s.2, P c) : (∀ c ∈ s'.1, P c) ∧ ∀ c ∈ s'.2, P c := by
  induction h with
  | refl => exact ⟨hhere, hrest⟩
  | tail _ hstep ih =>
      obtain ⟨hhere, hrest⟩ := ih
      cases hstep with
      | skip => exact ⟨hhere, fun c hc => hrest c (List.mem_cons_of_mem _ hc)⟩
      | up => exact ⟨fun c hc => hhere c (List.dropLast_subset _ hc), (List.forall_mem_cons.mp hrest).2⟩
      | down =>
          obtain ⟨hname, hrest⟩ := List.forall_mem_cons.mp hrest
          exact ⟨List.forall_mem_append.mpr ⟨hhere, List.forall_mem_singleton.mpr hname⟩, hrest⟩
      | link _ _ htarget =>
          refine ⟨?_, List.forall_mem_append.mpr ⟨htargets _ _ htarget, (List.forall_mem_cons.mp hrest).2⟩⟩
          unfold linkStart
          split
          · simp
          · exact hhere

/-! ## Settled places -/

/-- The components of the place are names, and none of the links that can be looked at stands on the way
to it. -/
structure IsSettled (t : Tree) (place : Place) : Prop where
  names : ∀ c ∈ place, IsName c
  linkFree : ∀ before, before <+: place → Fits before → t.target? before = none

theorem IsReal.isSettled {place : Place} (h : t.IsReal place) : t.IsSettled place :=
  ⟨h.names, fun before hbefore _ => h.linkFree before hbefore⟩

/-- A settled place that can be looked at is a real one. -/
theorem IsSettled.isReal {place : Place} (h : t.IsSettled place) (hfits : Fits place) : t.IsReal place := by
  refine ⟨h.names, fun before hbefore => h.linkFree before hbefore ?_⟩
  obtain ⟨after, rfl⟩ := hbefore
  exact hfits.of_append

theorem IsSettled.dropLast (h : t.IsSettled here) : t.IsSettled here.dropLast :=
  ⟨fun c hc => h.names c (List.dropLast_subset _ hc),
    fun before hbefore => h.linkFree before (hbefore.trans (List.dropLast_prefix _))⟩

theorem IsSettled.snoc {name : String} (h : t.IsSettled here) (hname : IsName name)
    (hnone : Fits (here ++ [name]) → t.target? (here ++ [name]) = none) :
    t.IsSettled (here ++ [name]) := by
  constructor
  · intro c hc
    rcases List.mem_append.mp hc with hc | hc
    · exact h.names c hc
    · exact List.mem_singleton.mp hc ▸ hname
  · intro before hbefore hfits
    rcases List.prefix_concat_iff.mp hbefore with rfl | hbefore
    · exact hnone hfits
    · exact h.linkFree before hbefore hfits

theorem IsSettled.linkStart (h : t.IsSettled here) (hsound : t.IsSound) (target : String) :
    t.IsSettled (Tree.linkStart here target) := by
  unfold Tree.linkStart
  split
  · exact hsound.isReal_nil.isSettled
  · exact h

/-- Steps lead from settled places to settled ones. -/
theorem IsSettled.step {s s' : Place × List String} (h : t.IsSettled s.1) (hsound : t.IsSound)
    (hstep : t.Step s s') : t.IsSettled s'.1 := by
  cases hstep with
  | skip => exact h
  | up => exact h.dropLast
  | down hname hnone => exact h.snoc hname hnone
  | link => exact h.linkStart hsound _

theorem IsSettled.steps {s s' : Place × List String} (h : t.IsSettled s.1) (hsound : t.IsSound)
    (hsteps : Relation.ReflTransGen t.Step s s') : t.IsSettled s'.1 := by
  induction hsteps with
  | refl => exact h
  | tail _ hstep ih => exact ih.step hsound hstep

/-- What leads from one settled place to another is followed as it stands. -/
theorem IsSettled.steps_down (h : t.IsSettled (here ++ rest)) :
    Relation.ReflTransGen t.Step (here, rest) (here ++ rest, []) := by
  induction rest generalizing here with
  | nil => rw [List.append_nil]
  | cons name rest ih =>
      have hsplit : here ++ name :: rest = (here ++ [name]) ++ rest := by simp
      have hname : IsName name := h.names name (by simp)
      rw [hsplit] at h ⊢
      exact .head (.down hname (h.linkFree _ (List.prefix_append _ _))) (ih h)

/-- From a settled place, the links that the walk sees are those that can be looked at. -/
theorem IsSettled.linkAt?_eq {name : String} (h : t.IsSettled here) (hsound : t.IsSound)
    (hname : IsName name) : t.linkAt? (here ++ [name]) =
      if Fits (here ++ [name]) then t.target? (here ++ [name]) else none := by
  by_cases hfits : Fits (here ++ [name])
  · exact (h.isReal hfits.of_append).linkAt?_eq hsound hname
  · rw [if_neg hfits, linkAt?, find_of_not_fits hfits]

/-! ## Walks without cycles -/

/-- The link at the first place has been walked to its end at the second one. -/
def Arrives (t : Tree) (q place : Place) : Prop := t.Opens q (place, [])

/-- The links at these places are being walked, and these components are left of the innermost one. -/
def Opened (t : Tree) (pending : List Place) (state : Place × List String) : Prop :=
  ∀ q ∈ pending, ∃ rest, t.Opens q (state.1, state.2 ++ rest)

theorem Opened.step {pending : List Place} {s s' : Place × List String} (h : t.Opened pending s)
    (hsteps : Relation.ReflTransGen t.Step s s') : t.Opened pending s' := by
  intro q hq
  obtain ⟨rest, target, htarget, hopens⟩ := h q hq
  exact ⟨rest, target, htarget, hopens.trans (steps_append hsteps rest)⟩

/-- The target of a link that is entered is followed for the links that are being walked, too. -/
theorem Opened.enter {pending : List Place} {name target : String}
    (h : t.Opened pending (here, name :: rest)) (hname : IsName name) (hfits : Fits (here ++ [name]))
    (htarget : t.target? (here ++ [name]) = some target) :
    t.Opened ((here ++ [name]) :: pending) (linkStart here target, Text.splitOn '/' target) := by
  intro q hq
  rcases List.mem_cons.mp hq with rfl | hq
  · exact ⟨[], target, htarget, by rw [List.dropLast_concat, List.append_nil]⟩
  · obtain ⟨after, htargets⟩ := h.step (.single (.link hname hfits htarget)) q hq
    exact ⟨rest ++ after, by simpa using htargets⟩

/-- A link that is being walked is not met again. -/
theorem Acyclic.not_mem {pending : List Place} {name : String} (h : t.Acyclic)
    (hopened : t.Opened pending (here, name :: rest)) : here ++ [name] ∉ pending := by
  intro hmem
  obtain ⟨after, hopens⟩ := hopened _ hmem
  exact h _ ⟨here, name, rest ++ after, rfl, hopens⟩

/-- **A walk comes to its end** where no link is part of a cycle. The links that are being walked are
distinct, so the depth suffices; the induction is on the depth and, within it, on the components. -/
theorem walkDeep_of_acyclic (hsound : t.IsSound) (hacyclic : t.Acyclic) {depth : Nat} {links : Links}
    {pending : List Path} {at' : Path} (hat : t.placeOf at' = here) (hhere : t.IsSettled here)
    (hspelled : at'.IsSpelled) (hknows : t.Knows t.Arrives pending links)
    (hopened : t.Opened (pending.map t.placeOf) (here, rest))
    (hdepth : t.top.countLinks ≤ depth + pending.length) :
    ∃ reached after, t.walkDeep depth links at' rest = ⟨reached, after, true⟩ ∧ reached.IsSpelled ∧
      Relation.ReflTransGen t.Step (here, rest) (t.placeOf reached, []) ∧ t.Knows t.Arrives pending after := by
  induction depth using Nat.strongRecOn generalizing at' here rest links pending with
  | ind depth ihDepth =>
    induction rest generalizing at' here links with
    | nil => exact ⟨at', links, walkDeep_nil, hspelled, by rw [hat], hknows⟩
    | cons name rest ih =>
        have honward {next : Path} {links' : Links}
            (hsteps : Relation.ReflTransGen t.Step (here, name :: rest) (t.placeOf next, rest))
            (hwalk : t.walkDeep depth links at' (name :: rest) = t.walkDeep depth links' next rest)
            (hnext : next.IsSpelled) (hknows' : t.Knows t.Arrives pending links') :
            ∃ reached after, t.walkDeep depth links at' (name :: rest) = ⟨reached, after, true⟩ ∧
              reached.IsSpelled ∧ Relation.ReflTransGen t.Step (here, name :: rest) (t.placeOf reached, []) ∧
                t.Knows t.Arrives pending after := by
          obtain ⟨reached, after, hrest, hreached, hplace, hafter⟩ :=
            ih rfl (hhere.steps hsound hsteps) hnext hknows' (hopened.step hsteps)
          exact ⟨reached, after, hwalk.trans hrest, hreached, hsteps.trans hplace, hafter⟩
        by_cases hskip : name = "" ∨ name = "."
        · exact honward (hat ▸ .single (.skip hskip)) (walkDeep_skip hskip) hspelled hknows
        by_cases hup : name = ".."
        · subst hup
          refine honward (.single ?_) walkDeep_up hspelled.up hknows
          rw [placeOf_up hspelled, hat]
          exact .up
        have hname : IsName name := ⟨fun h => hskip (.inl h), fun h => hskip (.inr h), hup⟩
        have hnext : t.placeOf (at'.child name) = here ++ [name] := by rw [placeOf_child hname, hat]
        have hlinkAt := hhere.linkAt?_eq hsound hname
        rw [← hnext] at hlinkAt
        cases hlink : t.linkAt? (t.placeOf (at'.child name)) with
        | none =>
            refine honward (.single ?_) (walkDeep_down hname hlink) (hspelled.child hname) hknows
            rw [hnext]
            refine .down hname fun hfits => ?_
            rw [← hnext] at hfits ⊢
            rw [← hlink, hlinkAt, if_pos hfits]
        | some target =>
            obtain ⟨hfits, htarget⟩ : Fits (here ++ [name]) ∧ t.target? (here ++ [name]) = some target := by
              rw [hlink, hnext] at hlinkAt
              split at hlinkAt
              · next hfits => exact ⟨hfits, hlinkAt.symm⟩
              · simp at hlinkAt
            have hnew := hacyclic.not_mem hopened
            rw [← hnext] at hnew
            -- where the link leads, the rest is followed from there
            have hthrough {middle : Place} (hmiddle : Relation.ReflTransGen t.Step
                (linkStart here target, Text.splitOn '/' target) (middle, [])) :
                Relation.ReflTransGen t.Step (here, name :: rest) (middle, rest) :=
              .head (.link hname hfits htarget) (steps_append hmiddle rest)
            cases hlookup : links.lookup (at'.child name) with
            | some state =>
                cases state with
                | pending => exact absurd (List.mem_map_of_mem ((hknows.isPending _).mp hlookup)) hnew
                | leadsTo known =>
                    obtain ⟨hspells, target', htarget', hknown⟩ := hknows.leadsTo _ _ hlookup
                    rw [hnext] at htarget' hknown
                    obtain rfl := Option.some.inj (htarget.symm.trans htarget')
                    rw [List.dropLast_concat] at hknown
                    exact honward (hthrough hknown) (walkDeep_known hname hlink hlookup) hspells hknows
            | none =>
                have hpush := hknows.push (by rw [hnext, htarget]; simp) hnew
                obtain ⟨depth, rfl, hinner⟩ := hpush.depth_left hdepth
                have hentered := hopened.enter hname hfits htarget
                rw [← hnext] at hentered
                obtain ⟨middle, after, hwalk, hmiddle, hsteps, hafter⟩ := ihDepth depth (Nat.lt_succ_self _)
                  (by rw [placeOf_targetStart, hat]) (hhere.linkStart hsound target)
                  (hspelled.targetStart target) hpush hentered hinner
                have hpop := hafter.pop hmiddle
                  ⟨target, by rw [hnext, htarget], by rwa [hnext, List.dropLast_concat]⟩
                exact honward (hthrough hsteps) (walkDeep_new hname hlink hlookup hwalk) hmiddle hpop

/-! ## Resolutions without cycles -/

/-- Following the components of a path comes to its end at the place. -/
def Reaches (t : Tree) (p : Path) (place : Place) : Prop :=
  Relation.ReflTransGen t.Step (t.startOf p, p.parts) (place, [])

/-- **A path leads to one place only.** -/
theorem Reaches.unique {p : Path} {place other : Place} (h : t.Reaches p place) (h' : t.Reaches p other) :
    place = other := by
  have hunique : Relator.RightUnique t.Step := fun _ _ _ => Step.unique
  rcases Relation.ReflTransGen.total_of_right_unique hunique h h' with hsteps | hsteps
  · exact (Prod.mk.inj (eq_of_steps_nil hsteps)).1.symm
  · exact (Prod.mk.inj (eq_of_steps_nil hsteps)).1

theorem Reaches.isSettled {p : Path} {place : Place} (h : t.Reaches p place) (hsound : t.IsSound) :
    t.IsSettled place := (hsound.isReal_startOf p).isSettled.steps hsound h

/-- **Every path leads somewhere**, and that is what it resolves to, whether something is there or not. -/
theorem reaches_realPath (hsound : t.IsSound) (hacyclic : t.Acyclic) (p : Path) :
    ∃ place, t.Reaches p place ∧ t.realPath p = Path.rooted place := by
  have hstart := (hsound.isReal_startOf p).isSettled
  have hopened : t.Opened (([] : List Path).map t.placeOf) (t.startOf p, p.parts) := by simp [Opened]
  obtain ⟨reached, after, hwalk, hreached, hsteps, -⟩ := walkDeep_of_acyclic hsound hacyclic
    (hsound.placeOf_origin p) hstart (Path.isSpelled_origin p) (knows_nil t _) hopened
    (countLinks_le_walkDepth t)
  exact ⟨t.placeOf reached, hsteps, by rw [realPath, hwalk, absolute_of_isSpelled hreached]⟩

/-- A settled place is not met by a loop when it is looked at. -/
theorem IsSettled.stat_ne_loop {place : Place} (h : t.IsSettled place) (hsound : t.IsSound) :
    t.stat (Path.rooted place) ≠ .error .loop := by
  by_cases hfits : Fits place
  · have hreal := h.isReal hfits
    exact stat_rooted_ne_loop hsound hreal.names hreal.linkFree
  · rw [stat, find_of_not_fits hfits]
    simp

/-- **Every path can be resolved**, and resolves to the place that it leads to. -/
theorem Reaches.resolve (hsound : t.IsSound) (hacyclic : t.Acyclic) {p : Path} {place : Place}
    (h : t.Reaches p place) : t.resolve p = .ok (Path.rooted place) := by
  obtain ⟨other, hother, hreal⟩ := reaches_realPath hsound hacyclic p
  obtain rfl := h.unique hother
  unfold Tree.resolve
  rw [hreal]
  dsimp only
  split
  · next hloop => exact absurd hloop ((h.isSettled hsound).stat_ne_loop hsound)
  · rfl

/-- **A resolution** is the place that the path leads to. -/
theorem reaches_of_resolve (hsound : t.IsSound) (hacyclic : t.Acyclic) {p q : Path}
    (h : t.resolve p = .ok q) : ∃ place, q = Path.rooted place ∧ t.Reaches p place := by
  obtain ⟨place, hplace, hreal⟩ := reaches_realPath hsound hacyclic p
  exact ⟨place, (t.resolve_eq_ok h).trans hreal, hplace⟩

/-- **A resolution at which something is found** is the real place where that stands. -/
theorem isReal_of_resolve (hsound : t.IsSound) (hacyclic : t.Acyclic) {p q : Path} {n : Node}
    (hresolve : t.resolve p = .ok q) (hn : t.stat q = .ok n) :
    ∃ place, q = Path.rooted place ∧ t.IsReal place ∧ t.top.at? place = some n := by
  obtain ⟨place, rfl, hplace⟩ := reaches_of_resolve hsound hacyclic hresolve
  have hreal := (hplace.isSettled hsound).isReal (fits_of_stat hn)
  exact ⟨place, rfl, hreal, ((stat_rooted hsound hreal.names hreal.linkFree).mp hn).2⟩

/-! ## Links that lead somewhere -/

theorem Follows.append {m n : Nat} {middle place : Place} {front : List String}
    (h : t.Follows m here front middle) (h' : t.Follows n middle rest place) :
    t.Follows (m + n) here (front ++ rest) place := by
  induction h with
  | done => simpa using h'
  | skip hname _ ih => exact .skip hname (ih h')
  | up _ ih => exact .up (ih h')
  | down hname hnone _ ih => exact .down hname hnone (ih h')
  | @link k l _ _ _ _ _ _ hname hfits htarget hlink _ _ ih =>
      rw [show k + l + 1 + n = k + (l + n) + 1 by omega]
      exact .link hname hfits htarget hlink (ih h')

/-- Following components to their end begins with a step, after which no more links are left. -/
theorem Follows.head {n : Nat} {place : Place} {name : String} (h : t.Follows n here (name :: rest) place) :
    ∃ s, t.Step (here, name :: rest) s ∧ ∃ m ≤ n, t.Follows m s.1 s.2 place := by
  cases h with
  | skip hname h => exact ⟨_, .skip hname, n, le_rfl, h⟩
  | up h => exact ⟨_, .up, n, le_rfl, h⟩
  | down hname hnone h => exact ⟨_, .down hname fun _ => hnone, n, le_rfl, h⟩
  | link hname hfits htarget hlink h =>
      exact ⟨_, .link hname hfits htarget, _, Nat.le_succ _, hlink.append h⟩

/-- A step is on the way to where following ends. -/
theorem Follows.step {n : Nat} {s s' : Place × List String} {place : Place}
    (h : t.Follows n s.1 s.2 place) (hstep : t.Step s s') : ∃ m ≤ n, t.Follows m s'.1 s'.2 place := by
  obtain ⟨here, rest⟩ := s
  cases rest with
  | nil => cases hstep
  | cons name rest =>
      obtain ⟨next, hnext, hfollows⟩ := h.head
      rwa [hstep.unique hnext]

theorem Follows.steps {n : Nat} {s s' : Place × List String} {place : Place}
    (h : t.Follows n s.1 s.2 place) (hsteps : Relation.ReflTransGen t.Step s s') :
    ∃ m ≤ n, t.Follows m s'.1 s'.2 place := by
  induction hsteps with
  | refl => exact ⟨n, le_rfl, h⟩
  | tail _ hstep ih =>
      obtain ⟨m, hm, hfollows⟩ := ih
      obtain ⟨k, hk, hfollows⟩ := hfollows.step hstep
      exact ⟨k, Nat.le_trans hk hm, hfollows⟩

/-- A link that leads somewhere is part of no cycle: met again, it would need more links than itself. -/
theorem Leads.not_isCyclic {n : Nat} {q place : Place} (h : t.Leads n q place) (hsound : t.IsSound) :
    ¬ t.IsCyclic q := by
  rintro ⟨here, name, rest, rfl, target, htarget, hsteps⟩
  obtain ⟨target', htarget', hfollows⟩ := h
  obtain rfl := Option.some.inj (htarget.symm.trans htarget')
  have hentry := (Node.isSound_of_at? hsound.top (target?_eq_some.mp htarget)).2 name (by simp)
  obtain ⟨hne, hdot, hdots, -⟩ := isEntryName_iff.mp hentry
  obtain ⟨m, hm, hagain⟩ := hfollows.steps hsteps
  cases hagain with
  | skip h => exact (not_isName h).1 ⟨hne, hdot, hdots⟩
  | up => exact hdots rfl
  | down _ hnone =>
      rw [hnone] at htarget
      simp at htarget
  | link _ _ htarget' hlink =>
      obtain rfl := Option.some.inj (htarget.symm.trans htarget')
      rw [List.dropLast_concat] at hfollows
      obtain ⟨rfl, -⟩ := hfollows.unique hlink
      omega

/-- **A tree has no cycles** if each of its links leads somewhere. -/
theorem acyclic_of_leads (hsound : t.IsSound)
    (h : ∀ q ∈ t.top.linkPlaces, ∃ n place, t.Leads n q place) : t.Acyclic := by
  intro q hcyclic
  obtain ⟨target, htarget⟩ : ∃ target, t.target? q = some target := by
    obtain ⟨_, _, _, -, target, htarget, -⟩ := hcyclic
    exact ⟨target, htarget⟩
  obtain ⟨n, place, hleads⟩ := h q (Node.mem_linkPlaces (target?_eq_some.mp htarget))
  exact hleads.not_isCyclic hsound hcyclic

end Tree

end Assay.Files

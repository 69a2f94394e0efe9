import Assay.Problem

/-!
# Computations that may fail

When a computation of several steps succeeds or fails, so did some of its steps: the inversion lemmas
that all other modules take their outcomes apart with. Two computations are alike (`Alike`) if they fail for
the same reason or give related results. A computation on what a user gave settles a property (`Settles`) if
it finds what has it, and refuses the input if nothing has it.
-/

namespace Assay

variable {ε ε' α β : Type}

theorem bind_eq_ok {x : Except ε α} {f : α → Except ε β} {b : β} :
    (x >>= f) = .ok b ↔ ∃ a, x = .ok a ∧ f a = .ok b := by
  cases x with
  | error e => simp [bind, Except.bind]
  | ok a => simp [bind, Except.bind]

theorem bind_eq_error {x : Except ε α} {f : α → Except ε β} {e : ε} :
    (x >>= f) = .error e ↔ x = .error e ∨ ∃ a, x = .ok a ∧ f a = .error e := by
  cases x with
  | error e' => simp [bind, Except.bind]
  | ok a => simp [bind, Except.bind]

theorem throw_eq_error {e : ε} : (throw e : Except ε α) = .error e := rfl

theorem ok_bind {a : α} {f : α → Except ε β} : ((.ok a : Except ε α) >>= f) = f a := rfl

theorem throw_bind {e : ε} {f : α → Except ε β} : ((throw e : Except ε α) >>= f) = .error e := rfl

/-- What a computation beyond a guard gives, the guard was not broken for. -/
theorem guard_eq_ok {c : Prop} [Decidable c] {e : ε} {f : Unit → Except ε α} {a : α} :
    (if c then (throw e : Except ε Unit) >>= f else f ()) = .ok a ↔ ¬ c ∧ f () = .ok a := by
  by_cases h : c
  · simp [h, throw_bind]
  · simp [h]

/-- A guard that comes last. -/
theorem unless_eq_ok {c : Prop} [Decidable c] {e : ε} {a b : α} :
    (if c then (throw e : Except ε α) else pure a) = .ok b ↔ ¬ c ∧ a = b := by
  by_cases h : c
  · simp [h, throw_eq_error]
  · simp [h, pure, Except.pure]

theorem pure_eq_ok {a b : α} : (pure a : Except ε α) = .ok b ↔ a = b := Except.ok.injEq a b ▸ Iff.rfl

theorem map_eq_ok {x : Except ε α} {f : α → β} {b : β} :
    x.map f = .ok b ↔ ∃ a, x = .ok a ∧ f a = b := by
  cases x with
  | error e => simp [Except.map]
  | ok a => simp [Except.map]

theorem map_isOk {x : Except ε α} {f : α → β} : (∃ b, x.map f = .ok b) ↔ ∃ a, x = .ok a := by
  cases x with
  | error e => simp [Except.map]
  | ok a => simp [Except.map]

theorem map_eq_error {x : Except ε α} {f : α → β} {e : ε} : x.map f = .error e ↔ x = .error e := by
  cases x with
  | error e' => simp [Except.map]
  | ok a => simp [Except.map]

theorem toOption_eq_some {x : Except ε α} {a : α} : x.toOption = some a ↔ x = .ok a := by
  cases x with
  | error e => exact iff_of_false nofun nofun
  | ok b => exact ⟨fun h => congrArg Except.ok (Option.some.inj h), fun h => congrArg some (Except.ok.inj h)⟩

/-- What is seen of the value of a computation shows that there is a value. -/
theorem exists_of_toOption_map {x : Except ε α} {f : α → β} {b : β} (h : x.toOption.map f = some b) :
    ∃ a, x = .ok a ∧ f a = b := by
  obtain ⟨a, ha, hb⟩ := Option.map_eq_some_iff.mp h
  exact ⟨a, toOption_eq_some.mp ha, hb⟩

/-- A traversal succeeds exactly if each of its steps does. -/
theorem mapM_isOk {f : α → Except ε β} {items : List α} :
    (∃ results, items.mapM f = .ok results) ↔ ∀ a ∈ items, ∃ b, f a = .ok b := by
  induction items with
  | nil => exact ⟨fun _ => nofun, fun _ => ⟨[], rfl⟩⟩
  | cons a rest ih =>
      rw [List.mapM_cons, List.forall_mem_cons, ← ih]
      constructor
      · rintro ⟨results, h⟩
        obtain ⟨b, hb, h⟩ := bind_eq_ok.mp h
        obtain ⟨others, hothers, -⟩ := bind_eq_ok.mp h
        exact ⟨⟨b, hb⟩, others, hothers⟩
      · rintro ⟨⟨b, hb⟩, others, hothers⟩
        exact ⟨b :: others, by rw [hb, hothers]; rfl⟩

/-- Only what the steps do at the items counts for a traversal. -/
theorem mapM_congr {f g : α → Except ε β} {items : List α} (h : ∀ a ∈ items, f a = g a) :
    items.mapM f = items.mapM g := by
  induction items with
  | nil => rfl
  | cons a rest ih =>
      obtain ⟨ha, hrest⟩ := List.forall_mem_cons.mp h
      rw [List.mapM_cons, List.mapM_cons, ha, ih hrest]

/-- A run over a list succeeds exactly if it does at every item. -/
theorem forM_eq_ok {f : α → Except ε Unit} {items : List α} :
    items.forM f = .ok () ↔ ∀ a ∈ items, f a = .ok () := by
  rw [List.forM_eq_forM]
  induction items with
  | nil => exact ⟨fun _ => nofun, fun _ => rfl⟩
  | cons a rest ih =>
      rw [List.forM_cons, bind_eq_ok, List.forall_mem_cons]
      exact ⟨fun ⟨_, ha, hrest⟩ => ⟨ha, ih.mp hrest⟩, fun ⟨ha, hrest⟩ => ⟨(), ha, ih.mpr hrest⟩⟩

/-- A traversal whose steps all succeed gives their values. -/
theorem mapM_eq_ok_map {f : α → Except ε β} {g : α → β} {items : List α} (h : ∀ a ∈ items, f a = .ok (g a)) :
    items.mapM f = .ok (items.map g) := by
  induction items with
  | nil => rfl
  | cons a rest ih =>
      obtain ⟨ha, hrest⟩ := List.forall_mem_cons.mp h
      rw [List.mapM_cons, ha, ih hrest]
      rfl

/-- A traversal fails with what the first of its steps that fails does. -/
theorem mapM_eq_error {f : α → Except ε β} {items : List α} {e : ε} : items.mapM f = .error e ↔
    ∃ before a after, items = before ++ a :: after ∧ (∀ c ∈ before, ∃ b, f c = .ok b) ∧ f a = .error e := by
  induction items with
  | nil =>
      refine ⟨nofun, fun ⟨before, a, after, h, _⟩ => ?_⟩
      exact absurd h.symm (List.append_ne_nil_of_right_ne_nil before nofun)
  | cons first rest ih =>
      rw [List.mapM_cons, bind_eq_error]
      constructor
      -- the first step fails, or it succeeds and the rest of the traversal fails
      · rintro (h | ⟨b, hb, h⟩)
        · exact ⟨[], first, rest, rfl, nofun, h⟩
        · rcases bind_eq_error.mp h with h | ⟨others, -, h⟩
          · obtain ⟨before, a, after, rfl, hbefore, ha⟩ := ih.mp h
            exact ⟨first :: before, a, after, rfl, List.forall_mem_cons.mpr ⟨⟨b, hb⟩, hbefore⟩, ha⟩
          · exact nomatch h
      · rintro ⟨before, a, after, hitems, hbefore, ha⟩
        cases before with
        | nil =>
            obtain ⟨rfl, rfl⟩ := List.cons.inj hitems
            exact .inl ha
        | cons c before =>
            obtain ⟨rfl, hrest⟩ := List.cons.inj hitems
            obtain ⟨⟨b, hb⟩, hbefore⟩ := List.forall_mem_cons.mp hbefore
            exact .inr ⟨b, hb, bind_eq_error.mpr (.inl (ih.mpr ⟨before, a, after, hrest, hbefore, ha⟩))⟩

/-- A step on what may be left out fails exactly if it is there and the step fails. -/
theorem optionMapM_eq_error {f : α → Except ε β} {item : Option α} {e : ε} :
    item.mapM f = .error e ↔ ∃ a, item = some a ∧ f a = .error e := by
  cases item with
  | none => exact ⟨nofun, nofun⟩
  | some a =>
      rw [Option.mapM_some]
      cases hf : f a with
      | error other => simp [hf, Functor.map, Except.map]
      | ok b => simp [hf, Functor.map, Except.map]

/-- What the first item is told to be is what the test ends with, unless it is told to be false. -/
theorem anyM_cons_of_ne {f : α → Except ε Bool} {first : α} {rest : List α} (h : f first ≠ .ok false) :
    (first :: rest).anyM f = f first := by
  rw [List.anyM]
  cases hf : f first with
  | error e => rfl
  | ok found =>
      cases found with
      | true => rfl
      | false => exact absurd hf h

/-- A test of the items in turn ends with the first one that is not told to be false, be it true or a failure. -/
theorem anyM_eq_iff {f : α → Except ε Bool} {items : List α} {r : Except ε Bool} (hr : r ≠ .ok false) :
    items.anyM f = r ↔
      ∃ before a after, items = before ++ a :: after ∧ (∀ c ∈ before, f c = .ok false) ∧ f a = r := by
  induction items with
  | nil =>
      refine ⟨fun h => absurd h.symm hr, fun ⟨before, a, after, h, _⟩ => ?_⟩
      exact absurd h.symm (List.append_ne_nil_of_right_ne_nil before nofun)
  | cons first rest ih =>
      by_cases hfirst : f first = .ok false
      · rw [List.anyM, hfirst, ok_bind, ih]
        constructor
        · rintro ⟨before, a, after, rfl, hbefore, ha⟩
          exact ⟨first :: before, a, after, rfl, List.forall_mem_cons.mpr ⟨hfirst, hbefore⟩, ha⟩
        · rintro ⟨before, a, after, hitems, hbefore, ha⟩
          cases before with
          | nil =>
              obtain ⟨rfl, -⟩ := List.cons.inj hitems
              exact absurd (ha.symm.trans hfirst) hr
          | cons c before =>
              obtain ⟨-, rfl⟩ := List.cons.inj hitems
              exact ⟨before, a, after, rfl, (List.forall_mem_cons.mp hbefore).2, ha⟩
      -- the first item decides, so nothing can stand before the one that does
      · rw [anyM_cons_of_ne hfirst]
        constructor
        · exact fun h => ⟨[], first, rest, rfl, nofun, h⟩
        · rintro ⟨before, a, after, hitems, hbefore, ha⟩
          cases before with
          | nil =>
              obtain ⟨rfl, -⟩ := List.cons.inj hitems
              exact ha
          | cons c before =>
              obtain ⟨rfl, -⟩ := List.cons.inj hitems
              exact absurd (hbefore _ List.mem_cons_self) hfirst

theorem anyM_eq_false {f : α → Except ε Bool} {items : List α} :
    items.anyM f = .ok false ↔ ∀ a ∈ items, f a = .ok false := by
  induction items with
  | nil => exact ⟨fun _ => nofun, fun _ => rfl⟩
  | cons first rest ih =>
      rw [List.anyM, bind_eq_ok, List.forall_mem_cons, ← ih]
      constructor
      · rintro ⟨found, hfirst, hrest⟩
        cases found with
        | true => exact nomatch hrest
        | false => exact ⟨hfirst, hrest⟩
      · rintro ⟨hfirst, hrest⟩
        exact ⟨false, hfirst, hrest⟩

/-- A traversal that fails does so at an item. -/
theorem exists_of_mapM_eq_error {f : α → Except ε β} {items : List α} {e : ε}
    (h : items.mapM f = .error e) : ∃ a ∈ items, f a = .error e := by
  obtain ⟨before, a, after, rfl, -, ha⟩ := mapM_eq_error.mp h
  exact ⟨a, List.mem_append_right before List.mem_cons_self, ha⟩

/-- Every value of a traversal comes from an item. -/
theorem exists_of_mem_mapM {f : α → Except ε β} {items : List α} {results : List β}
    (h : items.mapM f = .ok results) : ∀ b ∈ results, ∃ a ∈ items, f a = .ok b := by
  induction items generalizing results with
  | nil =>
      obtain rfl := pure_eq_ok.mp h
      exact nofun
  | cons a rest ih =>
      rw [List.mapM_cons] at h
      obtain ⟨b, hb, h⟩ := bind_eq_ok.mp h
      obtain ⟨others, hothers, h⟩ := bind_eq_ok.mp h
      obtain rfl := pure_eq_ok.mp h
      rw [List.forall_mem_cons]
      refine ⟨⟨a, List.mem_cons_self, hb⟩, fun c hc => ?_⟩
      obtain ⟨a', ha', hc⟩ := ih hothers c hc
      exact ⟨a', List.mem_cons_of_mem _ ha', hc⟩

theorem length_of_mapM {f : α → Except ε β} {items : List α} {results : List β}
    (h : items.mapM f = .ok results) : results.length = items.length := by
  induction items generalizing results with
  | nil =>
      obtain rfl := pure_eq_ok.mp h
      rfl
  | cons a items ih =>
      rw [List.mapM_cons] at h
      obtain ⟨b, -, h⟩ := bind_eq_ok.mp h
      obtain ⟨others, hothers, h⟩ := bind_eq_ok.mp h
      obtain rfl := pure_eq_ok.mp h
      rw [List.length_cons, List.length_cons, ih hothers]

theorem mapError_eq_ok {x : Except ε α} {f : ε → ε'} {a : α} : x.mapError f = .ok a ↔ x = .ok a := by
  cases x with
  | error e => exact ⟨nofun, nofun⟩
  | ok b =>
      constructor
      · intro h
        rw [Except.ok.inj h]
      · intro h
        rw [Except.ok.inj h]
        rfl

theorem mapError_eq_error {x : Except ε α} {f : ε → ε'} {e' : ε'} :
    x.mapError f = .error e' ↔ ∃ e, x = .error e ∧ f e = e' := by
  cases x with
  | error e =>
      constructor
      · intro h
        exact ⟨e, rfl, Except.error.inj h⟩
      · rintro ⟨_, he, rfl⟩
        rw [Except.error.inj he]
        rfl
  | ok a => exact ⟨nofun, nofun⟩

/-- What every step of a fold keeps holds of its result. -/
theorem invariant_of_foldlM {P : β → Prop} {f : β → α → Except ε β}
    (hstep : ∀ b a b', P b → f b a = .ok b' → P b') {l : List α} {b b' : β} (hb : P b)
    (h : l.foldlM f b = .ok b') : P b' := by
  induction l generalizing b with
  | nil =>
      rw [List.foldlM_nil, pure_eq_ok] at h
      exact h ▸ hb
  | cons a l ih =>
      rw [List.foldlM_cons] at h
      obtain ⟨c, hc, h⟩ := bind_eq_ok.mp h
      exact ih (hstep b a c hb hc) h

/-- What a fold fails with, one of its steps failed with. -/
theorem error_of_foldlM {Q : ε → Prop} {f : β → α → Except ε β} (hstep : ∀ b a e, f b a = .error e → Q e)
    {l : List α} {b : β} {e : ε} (h : l.foldlM f b = .error e) : Q e := by
  induction l generalizing b with
  | nil => simp [pure, Except.pure] at h
  | cons a l ih =>
      rw [List.foldlM_cons] at h
      rcases bind_eq_error.mp h with h | ⟨c, -, h⟩
      · exact hstep b a e h
      · exact ih h

/-! ## Two computations -/

/-- Both computations fail for the same reason, or their results are related. -/
inductive Alike (R : α → β → Prop) : Except ε α → Except ε β → Prop
  | error (e : ε) : Alike R (.error e) (.error e)
  | ok {a : α} {b : β} (h : R a b) : Alike R (.ok a) (.ok b)

namespace Alike

variable {α' β' : Type} {R : α → β → Prop} {x : Except ε α} {y : Except ε β}

theorem bind {R' : α' → β' → Prop} {f : α → Except ε α'} {g : β → Except ε β'} (h : Alike R x y)
    (hfg : ∀ {a b}, R a b → Alike R' (f a) (g b)) : Alike R' (x >>= f) (y >>= g) := by
  cases h with
  | error e => exact .error e
  | ok hab => exact hfg hab

/-- The first step is the same one. -/
theorem step {γ : Type} {x : Except ε γ} {f : γ → Except ε α} {g : γ → Except ε β}
    (h : ∀ c, Alike R (f c) (g c)) : Alike R (x >>= f) (x >>= g) := by
  cases x with
  | error e => exact .error e
  | ok c => exact h c

end Alike

/-! ## Inputs that are refused -/

/-- The computation finds exactly what has the property, and if nothing has it the input is at fault. -/
structure Settles {α : Type} (x : Except Failure α) (P : α → Prop) : Prop where
  found : ∀ a, x = .ok a ↔ P a
  refused : (∀ a, ¬ P a) → ∃ p, x = .error (.problem p) ∧ p.isInput = true

namespace Settles

variable {α β : Type} {x : Except Failure α} {P : α → Prop}

/-- What has the property is found, so there is one such thing at most. -/
theorem intro (hfound : ∀ a, P a → x = .ok a)
    (hrefused : (∀ a, ¬ P a) → ∃ p, x = .error (.problem p) ∧ p.isInput = true) : Settles x P where
  refused := hrefused
  found a := by
    constructor
    · intro hx
      by_cases hP : ∃ b, P b
      · obtain ⟨b, hb⟩ := hP
        obtain rfl := Except.ok.inj (hx.symm.trans (hfound b hb))
        exact hb
      · obtain ⟨p, hp, -⟩ := hrefused fun b hb => hP ⟨b, hb⟩
        rw [hx] at hp
        simp at hp
    · exact hfound a

theorem congr {Q : α → Prop} (h : Settles x P) (hPQ : ∀ a, P a ↔ Q a) : Settles x Q where
  found a := (h.found a).trans (hPQ a)
  refused hQ := h.refused fun a ha => hQ a ((hPQ a).mp ha)

theorem pure (a : α) : Settles (pure a) (a = ·) :=
  .intro (fun _ h => congrArg Except.ok h) fun h => absurd rfl (h a)

/-- What is found goes on to the next step, which settles a property of its own. -/
theorem bind {f : α → Except Failure β} {Q : α → β → Prop} (hx : Settles x P)
    (hf : ∀ a, P a → Settles (f a) (Q a)) : Settles (x >>= f) fun b => ∃ a, P a ∧ Q a b where
  found b := by
    rw [bind_eq_ok]
    constructor
    · rintro ⟨a, ha, hb⟩
      have hP := (hx.found a).mp ha
      exact ⟨a, hP, ((hf a hP).found b).mp hb⟩
    · rintro ⟨a, hP, hQ⟩
      exact ⟨a, (hx.found a).mpr hP, ((hf a hP).found b).mpr hQ⟩
  refused h := by
    by_cases hP : ∃ a, P a
    · obtain ⟨a, hP⟩ := hP
      obtain ⟨p, hp, hinput⟩ := (hf a hP).refused fun b hQ => h b ⟨a, hP, hQ⟩
      exact ⟨p, bind_eq_error.mpr (.inr ⟨a, (hx.found a).mpr hP, hp⟩), hinput⟩
    · obtain ⟨p, hp, hinput⟩ := hx.refused fun a hPa => hP ⟨a, hPa⟩
      exact ⟨p, bind_eq_error.mpr (.inl hp), hinput⟩

end Settles

end Assay

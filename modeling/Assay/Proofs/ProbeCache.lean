import Mathlib.Algebra.Order.Group.Defs
import Mathlib.Tactic.Linarith
import Assay.ProbeCache

/-!
# What a cache of probes gives back

A run of calls to a cache is watched from outside: every call leaves an event behind, with the readings of
the clock and the probes that were made in it. Which entry of a key may be given back is said by the events
alone: the entry of the latest of those that concern the key (`latest?`), while it is live. The main result,
`run_isSound`, is that every call answers by it and probes, once, if and only if there is no such entry. It
rests on an invariant that every call keeps: from now on, the cache and the events agree on what is live
(`Agrees`).
-/

namespace Assay.ProbeCache

/-! ## Clocks and probes -/

/-- A clock that never goes back: no reading is before the time that its surroundings have reached, and they
have reached every reading. -/
structure Clock (τ σ : Type) [LE τ] where
  read : σ → τ × σ
  reached : σ → τ
  reached_le_read : ∀ world, reached world ≤ (read world).1
  read_le_reached : ∀ world, (read world).1 ≤ reached (read world).2

/-- A probe, during which the clock may go on. -/
structure Clock.Probe {τ σ : Type} [LE τ] (clock : Clock τ σ) (ε : Type) where
  run : σ → Except ε Availability × σ
  reached_le : ∀ world, clock.reached world ≤ clock.reached (run world).2

/-- What a call does to its surroundings. -/
inductive Act (τ ε : Type) where
  | reading (now : τ)
  | probe (outcome : Except ε Availability)

/-- The act is a probe. -/
def Act.isProbe {τ ε : Type} : Act τ ε → Bool
  | reading _ => false
  | probe _ => true

variable {τ σ ε : Type}

/-- The clock, with its readings written down. -/
def Clock.watched [LE τ] (clock : Clock τ σ) (at_ : σ × List (Act τ ε)) : τ × σ × List (Act τ ε) :=
  let (now, world) := clock.read at_.1
  (now, world, at_.2 ++ [.reading now])

/-- The probe, written down when it is made. -/
def Clock.Probe.watched [LE τ] {clock : Clock τ σ} (probe : clock.Probe ε) (at_ : σ × List (Act τ ε)) :
    Except ε Availability × σ × List (Act τ ε) :=
  let (outcome, world) := probe.run at_.1
  (outcome, world, at_.2 ++ [.probe outcome])

/-! ## Runs -/

/-- A call to the cache. -/
inductive Call [LE τ] (clock : Clock τ σ) (ε : Type) where
  | ask (key : ProbeKey) (probe : clock.Probe ε)
  | peek (key : ProbeKey)
  | invalidate (key : Option ProbeKey)

/-- What was seen of a call: what it did to its surroundings and what it gave back. -/
inductive Event (τ ε : Type) where
  | asked (key : ProbeKey) (acts : List (Act τ ε)) (answer : Except ε (ProbeEntry τ))
  | peeked (key : ProbeKey) (now : τ) (answer : Option (ProbeEntry τ))
  | invalidated (key : Option ProbeKey)

/-- A cache in its surroundings, with the events so far, the latest first. -/
structure Observed (τ σ ε : Type) where
  cache : ProbeCache τ
  world : σ
  history : List (Event τ ε)

section Run

variable [AddCommGroup τ] [LinearOrder τ] {clock : Clock τ σ}

/-- What is there after a question. -/
def Observed.answered (s : Observed τ σ ε) (key : ProbeKey) :
    Except ε (ProbeEntry τ) × ProbeCache τ × σ × List (Act τ ε) → Observed τ σ ε
  | (answer, cache, world, acts) => ⟨cache, world, .asked key acts answer :: s.history⟩

/-- One call. -/
def step (s : Observed τ σ ε) : Call clock ε → Observed τ σ ε
  | .ask key probe => s.answered key (s.cache.ask key clock.watched probe.watched (s.world, []))
  | .peek key =>
    let (now, world) := clock.read s.world
    ⟨s.cache, world, .peeked key now (s.cache.peek key now) :: s.history⟩
  | .invalidate key => ⟨s.cache.invalidate key, s.world, .invalidated key :: s.history⟩

/-- Calls in a row to a cache that is empty at first. -/
def run (lifetime : τ) (world : σ) (calls : List (Call clock ε)) : Observed τ σ ε :=
  calls.foldl step ⟨empty lifetime, world, []⟩

end Run

/-! ## What may be given back -/

/-- The event decides on the entry of a key: it probed the key, or made an end of its entry. -/
def Event.concerns (key : ProbeKey) : Event τ ε → Bool
  | asked other acts _ => other == key && acts.any Act.isProbe
  | peeked _ _ _ => false
  | invalidated other => other.all (· == key)

/-- The entry that an event leaves behind. -/
def Event.entry? : Event τ ε → Option (ProbeEntry τ)
  | asked _ _ answer => answer.toOption
  | peeked _ _ _ | invalidated _ => none

/-- The entry of the latest event that concerns a key. All other events count for nothing. -/
def latest? (key : ProbeKey) (history : List (Event τ ε)) : Option (ProbeEntry τ) :=
  (history.filter (Event.concerns key)).head?.bind Event.entry?

/-- The entry is live at a time. -/
def IsLive [Sub τ] [LT τ] (lifetime now : τ) (e : ProbeEntry τ) : Prop := now - e.checkedAt < lifetime

instance [Sub τ] [LT τ] [DecidableLT τ] (lifetime now : τ) : DecidablePred (IsLive lifetime now) :=
  fun e => inferInstanceAs (Decidable (now - e.checkedAt < lifetime))

/-- What a question may do and be answered, by the entry that is known. -/
inductive Answers [Sub τ] [LT τ] (lifetime : τ) (known : Option (ProbeEntry τ)) :
    List (Act τ ε) → Except ε (ProbeEntry τ) → Prop
  /-- A live entry is given back without a probe. -/
  | remembered {now : τ} {e : ProbeEntry τ} : known = some e → IsLive lifetime now e →
      Answers lifetime known [.reading now] (.ok e)
  /-- Without a live entry there is one probe, and its outcome is given back with the time after it. -/
  | probed {first second now : τ} {found : Availability} :
      (∀ e ∈ known, ¬ IsLive lifetime first e ∧ ¬ IsLive lifetime second e) →
      Answers lifetime known [.reading first, .reading second, .probe (.ok found), .reading now]
        (.ok ⟨found, now⟩)
  /-- If the probe fails, so does the question. -/
  | failed {first second : τ} {failure : ε} :
      (∀ e ∈ known, ¬ IsLive lifetime first e ∧ ¬ IsLive lifetime second e) →
      Answers lifetime known [.reading first, .reading second, .probe (.error failure)] (.error failure)

/-- The event is as it should be after those before it. -/
def Event.IsSound [Sub τ] [LT τ] [DecidableLT τ] (lifetime : τ) (older : List (Event τ ε)) :
    Event τ ε → Prop
  | asked key acts answer => Answers lifetime (latest? key older) acts answer
  | peeked key now answer => answer = (latest? key older).filter fun e => decide (IsLive lifetime now e)
  | invalidated _ => True

/-- The key that an event is about. -/
def Event.key? : Event τ ε → Option ProbeKey
  | asked key _ _ | peeked key _ _ => some key
  | invalidated _ => none

/-- An entry of a key is given back at a reading of the clock, without a probe. -/
inductive Event.Recalls : Event τ ε → ProbeKey → τ → ProbeEntry τ → Prop
  | asked {key : ProbeKey} {acts : List (Act τ ε)} {now : τ} {entry : ProbeEntry τ} :
      acts.any Act.isProbe = false → .reading now ∈ acts → Recalls (.asked key acts (.ok entry)) key now entry
  | peeked {key : ProbeKey} {now : τ} {entry : ProbeEntry τ} :
      Recalls (.peeked key now (some entry)) key now entry

/-! ## Entries -/

theorem lookup_cons_eq_ite (key other : ProbeKey) (e : ProbeEntry τ)
    (entries : List (ProbeKey × ProbeEntry τ)) :
    ((key, e) :: entries).lookup other = if other = key then some e else entries.lookup other := by
  by_cases h : other = key
  · simp [h]
  · simp [List.lookup_cons, beq_false_of_ne h, h]

theorem lookup_set (key other : ProbeKey) (e : ProbeEntry τ) (entries : List (ProbeKey × ProbeEntry τ)) :
    (set key e entries).lookup other = if other = key then some e else entries.lookup other := by
  induction entries with
  | nil => rw [set, lookup_cons_eq_ite]
  | cons entry entries ih =>
      obtain ⟨k, old⟩ := entry
      rw [set, lookup_cons_eq_ite]
      by_cases hk : k = key
      · subst hk
        rw [if_pos (beq_self_eq_true k), lookup_cons_eq_ite]
        split <;> rfl
      · rw [if_neg (by simpa using hk), lookup_cons_eq_ite, ih]
        -- the first entry is that of another key
        by_cases hother : other = k
        · rw [if_pos hother, if_neg fun h => hk (hother.symm.trans h), if_pos hother]
        · rw [if_neg hother, if_neg hother]

theorem lookup_filter_ne (key other : ProbeKey) (entries : List (ProbeKey × ProbeEntry τ)) :
    (entries.filter fun e => e.1 != key).lookup other =
      if other = key then none else entries.lookup other := by
  induction entries with
  | nil => simp
  | cons entry entries ih =>
      obtain ⟨k, old⟩ := entry
      rw [List.filter_cons, lookup_cons_eq_ite]
      by_cases hk : k = key
      · subst hk
        rw [if_neg (by simp), ih]
        split <;> rfl
      · rw [if_pos (by simpa using hk), lookup_cons_eq_ite, ih]
        by_cases hother : other = k
        · rw [if_pos hother, if_neg fun h => hk (hother.symm.trans h), if_pos hother]
        · rw [if_neg hother, if_neg hother]

theorem stored?_store (c : ProbeCache τ) (key other : ProbeKey) (e : ProbeEntry τ) :
    (c.store key e).stored? other = if other = key then some e else c.stored? other :=
  lookup_set key other e c.entries

theorem stored?_invalidate (c : ProbeCache τ) (key : Option ProbeKey) (other : ProbeKey) :
    (c.invalidate key).stored? other = if key.all (· == other) = true then none else c.stored? other := by
  cases key with
  | none => simp [invalidate, stored?]
  | some key =>
      have hkey : (some key).all (· == other) = true ↔ other = key := by
        rw [Option.all_some, beq_iff_eq]
        exact eq_comm
      rw [invalidate, stored?, lookup_filter_ne]
      simp only [hkey]
      rfl

theorem latest?_cons (key : ProbeKey) (e : Event τ ε) (history : List (Event τ ε)) :
    latest? key (e :: history) = if e.concerns key = true then e.entry? else latest? key history := by
  rw [latest?, List.filter_cons]
  split <;> rfl

/-- An entry is the latest one if a probe brought it and since then nothing concerned its key. -/
theorem latest?_eq_some {key : ProbeKey} {history : List (Event τ ε)} {entry : ProbeEntry τ}
    (h : latest? key history = some entry) : ∃ since acts before,
      history = since ++ .asked key acts (.ok entry) :: before ∧ acts.any Act.isProbe = true ∧
        ∀ x ∈ since, x.concerns key = false := by
  obtain ⟨e, hhead, hentry⟩ := Option.bind_eq_some_iff.mp h
  -- the first of the events that concern the key splits the history
  rw [List.head?_filter, List.find?_eq_some_iff_append] at hhead
  obtain ⟨hconcerns, since, before, rfl, hsince⟩ := hhead
  cases e with
  | asked other acts answer =>
      rw [Event.concerns, Bool.and_eq_true, beq_iff_eq] at hconcerns
      obtain ⟨rfl, hprobe⟩ := hconcerns
      cases answer with
      | ok found =>
          obtain rfl := Option.some.inj hentry
          exact ⟨since, acts, before, rfl, hprobe, fun x hx => by simpa using hsince x hx⟩
      | error failure => simp [Event.entry?, Except.toOption] at hentry
  | peeked => simp [Event.entry?] at hentry
  | invalidated => simp [Event.entry?] at hentry

section Order

variable [AddCommGroup τ] [LinearOrder τ] {clock : Clock τ σ}

theorem peek_eq (c : ProbeCache τ) (key : ProbeKey) (now : τ) :
    c.peek key now = (c.stored? key).filter fun e => decide (IsLive c.lifetime now e) := rfl

theorem peek_eq_none {c : ProbeCache τ} {key : ProbeKey} {now : τ} :
    c.peek key now = none ↔ ∀ e ∈ c.stored? key, ¬ IsLive c.lifetime now e := by
  rw [peek_eq, Option.filter_eq_none_iff]
  simp

/-! ## The invariant -/

/-- From now on, the cache and the events agree on what is live. -/
structure Agrees (clock : Clock τ σ) (lifetime : τ) (s : Observed τ σ ε) : Prop where
  lifetime_eq : s.cache.lifetime = lifetime
  peek_eq_latest : ∀ key now, clock.reached s.world ≤ now →
    s.cache.peek key now = (latest? key s.history).filter fun e => decide (IsLive lifetime now e)

variable {lifetime : τ} {s : Observed τ σ ε}

/-- An event that concerns no key changes nothing as time goes on. -/
theorem Agrees.of_quiet (h : Agrees clock lifetime s) {later : σ}
    (hle : clock.reached s.world ≤ clock.reached later) {e : Event τ ε}
    (hquiet : ∀ key, e.concerns key = false) : Agrees clock lifetime ⟨s.cache, later, e :: s.history⟩ where
  lifetime_eq := h.lifetime_eq
  peek_eq_latest key now hnow := by
    rw [latest?_cons, hquiet, if_neg Bool.false_ne_true]
    exact h.peek_eq_latest key now (hle.trans hnow)

/-- What is not live by the cache is not live by the events. -/
theorem Agrees.not_live (h : Agrees clock lifetime s) {key : ProbeKey} {now : τ}
    (hle : clock.reached s.world ≤ now) (hnone : s.cache.peek key now = none) :
    ∀ e ∈ latest? key s.history, ¬ IsLive lifetime now e := by
  rw [h.peek_eq_latest key now hle, Option.filter_eq_none_iff] at hnone
  intro e he
  simpa using hnone e he

theorem Agrees.peek (h : Agrees clock lifetime s) (key : ProbeKey) :
    Agrees clock lifetime (step s (.peek key : Call clock ε)) ∧
      ∃ e, (step s (.peek key : Call clock ε)).history = e :: s.history ∧ e.IsSound lifetime s.history := by
  have hread := clock.reached_le_read s.world
  exact ⟨h.of_quiet (hread.trans (clock.read_le_reached _)) fun _ => rfl, _, rfl,
    h.peek_eq_latest key _ hread⟩

theorem Agrees.invalidate (h : Agrees clock lifetime s) (key : Option ProbeKey) :
    Agrees clock lifetime (step s (.invalidate key : Call clock ε)) where
  lifetime_eq := by
    cases key with
    | none => exact h.lifetime_eq
    | some key => exact h.lifetime_eq
  peek_eq_latest other now hnow := by
    have hlifetime : (s.cache.invalidate key).lifetime = s.cache.lifetime := by cases key <;> rfl
    have hagrees := h.peek_eq_latest other now hnow
    show (s.cache.invalidate key).peek other now = _
    rw [step, latest?_cons, Event.concerns, peek_eq, stored?_invalidate, hlifetime]
    rw [peek_eq] at hagrees
    by_cases hkey : key.all (· == other) = true
    · rw [if_pos hkey, if_pos hkey]
      rfl
    · rw [if_neg hkey, if_neg hkey, hagrees]

theorem agrees_empty (hlifetime : 0 ≤ lifetime) (world : σ) :
    Agrees clock lifetime (⟨empty lifetime, world, []⟩ : Observed τ σ ε) where
  lifetime_eq := if_neg (not_lt.mpr hlifetime)
  peek_eq_latest _ _ _ := rfl

section Monotone

variable [IsOrderedAddMonoid τ]

/-- An entry that is not live now never is again. -/
theorem IsLive.earlier {now later : τ} {e : ProbeEntry τ} (h : IsLive lifetime later e)
    (hle : now ≤ later) : IsLive lifetime now e :=
  lt_of_le_of_lt (sub_le_sub_right hle _) h

theorem peek_none_later {c : ProbeCache τ} {key : ProbeKey} {now later : τ} (hle : now ≤ later)
    (h : c.peek key now = none) : c.peek key later = none :=
  peek_eq_none.mpr fun e he hlive => peek_eq_none.mp h e he (hlive.earlier hle)

/-! ## One question -/

/-- What a question does. It finds a live entry at the first look, or it probes: at the second look no entry
is live that was not at the first. -/
inductive Course (clock : Clock τ σ) (c : ProbeCache τ) (key : ProbeKey) (world : σ) :
    Except ε (ProbeEntry τ) × ProbeCache τ × σ × List (Act τ ε) → Prop
  | remembered {now : τ} {e : ProbeEntry τ} {later : σ} : clock.reached world ≤ now →
      now ≤ clock.reached later → c.peek key now = some e →
      Course clock c key world (.ok e, c, later, [.reading now])
  | failed {first second : τ} {failure : ε} {later : σ} : clock.reached world ≤ first →
      first ≤ second → second ≤ clock.reached later → c.peek key first = none → c.peek key second = none →
      Course clock c key world
        (.error failure, c, later, [.reading first, .reading second, .probe (.error failure)])
  | probed {first second now : τ} {found : Availability} {later : σ} : clock.reached world ≤ first →
      first ≤ second → second ≤ now → now ≤ clock.reached later → c.peek key first = none →
      c.peek key second = none →
      Course clock c key world (.ok ⟨found, now⟩, c.store key ⟨found, now⟩, later,
        [.reading first, .reading second, .probe (.ok found), .reading now])

theorem course_ask (c : ProbeCache τ) (key : ProbeKey) (probe : clock.Probe ε) (world : σ) :
    Course clock c key world (c.ask key clock.watched probe.watched (world, [])) := by
  have hread (at_ : σ × List (Act τ ε)) : clock.watched at_ =
      ((clock.read at_.1).1, (clock.read at_.1).2, at_.2 ++ [.reading (clock.read at_.1).1]) := rfl
  have hprobe (at_ : σ × List (Act τ ε)) : probe.watched at_ =
      ((probe.run at_.1).1, (probe.run at_.1).2, at_.2 ++ [.probe (probe.run at_.1).1]) := rfl
  let first := clock.read world
  let second := clock.read first.2
  let outcome := probe.run second.2
  cases hfirst : c.peek key first.1 with
  | some e =>
      have hasked : c.ask key clock.watched probe.watched (world, []) =
          (.ok e, c, first.2, [.reading first.1]) := by
        simp only [ask, hread, hfirst, first, List.nil_append]
      rw [hasked]
      exact .remembered (clock.reached_le_read _) (clock.read_le_reached _) hfirst
  | none =>
      -- time only passes between two readings, so an entry that was not live does not come back
      have hle : first.1 ≤ second.1 := (clock.read_le_reached _).trans (clock.reached_le_read _)
      have hsecond := peek_none_later hle hfirst
      have hlater : second.1 ≤ clock.reached outcome.2 :=
        (clock.read_le_reached _).trans (probe.reached_le _)
      cases houtcome : outcome.1 with
      | error failure =>
          have hasked : c.ask key clock.watched probe.watched (world, []) = (.error failure, c, outcome.2,
              [.reading first.1, .reading second.1, .probe (.error failure)]) := by
            simp only [ask, hread, hprobe, hfirst, hsecond, houtcome, first, second, outcome]
            rfl
          rw [hasked]
          exact .failed (clock.reached_le_read _) hle hlater hfirst hsecond
      | ok found =>
          let last := clock.read outcome.2
          have hasked : c.ask key clock.watched probe.watched (world, []) =
              (.ok ⟨found, last.1⟩, c.store key ⟨found, last.1⟩, last.2,
                [.reading first.1, .reading second.1, .probe (.ok found), .reading last.1]) := by
            simp only [ask, hread, hprobe, hfirst, hsecond, houtcome, first, second, outcome, last]
            rfl
          rw [hasked]
          exact .probed (clock.reached_le_read _) hle (hlater.trans (clock.reached_le_read _))
            (clock.read_le_reached _) hfirst hsecond

/-- **A question keeps the invariant** and is answered by it. -/
theorem Agrees.answered (h : Agrees clock lifetime s) {key : ProbeKey}
    {asked : Except ε (ProbeEntry τ) × ProbeCache τ × σ × List (Act τ ε)}
    (hcourse : Course clock s.cache key s.world asked) : Agrees clock lifetime (s.answered key asked) ∧
      ∃ e, (s.answered key asked).history = e :: s.history ∧ e.IsSound lifetime s.history := by
  cases hcourse with
  | remembered hnow hlater hlive =>
      refine ⟨h.of_quiet (hnow.trans hlater) fun _ => ?_, _, rfl, ?_⟩
      · simp [Event.concerns, Act.isProbe]
      · rw [h.peek_eq_latest key _ hnow, Option.filter_eq_some_iff, decide_eq_true_eq] at hlive
        exact .remembered hlive.1 hlive.2
  | failed hfirst hle hlater hnone hstill =>
      have hsecond := hfirst.trans hle
      refine ⟨⟨h.lifetime_eq, fun other now hnow => ?_⟩, _, rfl,
        .failed fun e he => ⟨h.not_live hfirst hnone e he, h.not_live hsecond hstill e he⟩⟩
      show s.cache.peek other now = _
      rw [Observed.answered, latest?_cons]
      by_cases hkey : key = other
      · -- the entry that there may be is not live any more
        subst hkey
        simp [Event.concerns, Event.entry?, Act.isProbe, Except.toOption,
          peek_none_later (hlater.trans hnow) hstill]
      · simpa [Event.concerns, hkey] using h.peek_eq_latest other now (hsecond.trans (hlater.trans hnow))
  | probed hfirst hle hprobed hlater hnone hstill =>
      have hsecond := hfirst.trans hle
      refine ⟨⟨h.lifetime_eq, fun other now hnow => ?_⟩, _, rfl,
        .probed fun e he => ⟨h.not_live hfirst hnone e he, h.not_live hsecond hstill e he⟩⟩
      show (s.cache.store key _).peek other now = _
      rw [Observed.answered, latest?_cons, peek_eq, stored?_store]
      by_cases hkey : key = other
      · -- the outcome of the probe takes the place of the entry that there may be
        subst hkey
        simp [Event.concerns, Event.entry?, Act.isProbe, Except.toOption, store, h.lifetime_eq]
      · have hagrees := h.peek_eq_latest other now
          (hsecond.trans (hprobed.trans (hlater.trans hnow)))
        rw [if_neg (Ne.symm hkey), if_neg (by simp [Event.concerns, hkey])]
        exact hagrees

/-! ## Runs -/

/-- **Every call keeps the invariant** and leaves an event behind that is as it should be. -/
theorem Agrees.step (h : Agrees clock lifetime s) (call : Call clock ε) :
    Agrees clock lifetime (ProbeCache.step s call) ∧
      ∃ e, (ProbeCache.step s call).history = e :: s.history ∧ e.IsSound lifetime s.history := by
  cases call with
  | ask key probe => exact h.answered (course_ask s.cache key probe s.world)
  | peek key => exact h.peek key
  | invalidate key => exact ⟨h.invalidate key, _, rfl, trivial⟩

theorem Agrees.run (h : Agrees clock lifetime s)
    (hsound : ∀ e older, e :: older <:+ s.history → e.IsSound lifetime older) (calls : List (Call clock ε)) :
    ∀ e older, e :: older <:+ (calls.foldl ProbeCache.step s).history → e.IsSound lifetime older := by
  induction calls generalizing s with
  | nil => exact hsound
  | cons call calls ih =>
      obtain ⟨hnext, e, hhistory, he⟩ := h.step call
      refine ih hnext fun e' older hsuffix => ?_
      rw [hhistory, List.suffix_cons_iff] at hsuffix
      rcases hsuffix with heq | hsuffix
      · obtain ⟨rfl, rfl⟩ := List.cons.inj heq
        exact he
      · exact hsound e' older hsuffix

/-- **Every call of a run is answered by the events that concern its key**, in whatever way other keys are
used: it gives back the entry of the latest of them while it is live, and probes, once, if there is none. An
entry that is given back without a probe is live, is what the latest probe of its key found, and was not
invalidated since. -/
theorem run_isSound (hlifetime : 0 ≤ lifetime) (world : σ) (calls : List (Call clock ε)) {e : Event τ ε}
    {older : List (Event τ ε)} (h : e :: older <:+ (run lifetime world calls).history) :
    (∀ history, (∀ key ∈ e.key?, history.filter (Event.concerns key) = older.filter (Event.concerns key)) →
      e.IsSound lifetime history) ∧
    ∀ key now entry, e.Recalls key now entry → IsLive lifetime now entry ∧ ∃ since acts before,
      older = since ++ .asked key acts (.ok entry) :: before ∧ acts.any Act.isProbe = true ∧
        ∀ x ∈ since, x.concerns key = false := by
  have hsound : e.IsSound lifetime older :=
    (agrees_empty hlifetime world).run (fun _ _ hnil => by simp at hnil) calls e older h
  constructor
  -- what an event is checked against are only the events that concern its key
  · intro history hsame
    cases e with
    | asked key acts answer =>
        rw [Event.IsSound, latest?, hsame key rfl]
        exact hsound
    | peeked key now answer =>
        rw [Event.IsSound, latest?, hsame key rfl]
        exact hsound
    | invalidated => trivial
  · intro key now entry hrecalls
    cases hrecalls with
    | asked hquiet hread =>
        cases hsound with
        | remembered hknown hlive =>
            obtain rfl := Act.reading.inj (List.mem_singleton.mp hread)
            exact ⟨hlive, latest?_eq_some hknown⟩
        | probed => simp [Act.isProbe] at hquiet
    | peeked =>
        obtain ⟨hknown, hlive⟩ := Option.filter_eq_some_iff.mp (Eq.symm hsound)
        exact ⟨of_decide_eq_true hlive, latest?_eq_some hknown⟩

end Monotone

end Order

/-- A clock that counts its readings. -/
def counter : Clock ℤ ℤ where
  read n := (n, n + 1)
  reached n := n
  reached_le_read _ := le_rfl
  read_le_reached n := show n ≤ n + 1 by omega

/-- What is found at 5 lives until 7 if the lifetime is 2: it is given back at 6, and at 7 there is a new
probe. -/
theorem run_isSound_counter :
    let key : ProbeKey := ("c", "clang")
    let found : Availability := { available := true }
    let probe : counter.Probe Unit := ⟨fun n => (.ok found, n + 3), fun n => show n ≤ n + 3 by omega⟩
    let acts (n : ℤ) : List (Act ℤ Unit) :=
      [.reading n, .reading (n + 1), .probe (.ok found), .reading (n + 5)]
    let older : List (Event ℤ Unit) := [.asked key (acts 0) (.ok ⟨found, 5⟩)]
    (run 2 0 [.ask key probe, .peek key, .ask key probe]).history =
      .asked key (acts 7) (.ok ⟨found, 12⟩) :: .peeked key 6 (some ⟨found, 5⟩) :: older ∧
    IsLive 2 6 (⟨found, 5⟩ : ProbeEntry ℤ) ∧ ∃ since acts before,
      older = since ++ .asked key acts (.ok ⟨found, 5⟩) :: before ∧ acts.any Act.isProbe = true ∧
        ∀ x ∈ since, x.concerns key = false := by
  intro key found probe acts older
  have hhistory : (run 2 0 [.ask key probe, .peek key, .ask key probe]).history =
      .asked key (acts 7) (.ok ⟨found, 12⟩) :: .peeked key 6 (some ⟨found, 5⟩) :: older := by rfl
  have hsuffix : .peeked key 6 (some ⟨found, 5⟩) :: older <:+
      (run 2 0 [.ask key probe, .peek key, .ask key probe]).history := by
    rw [hhistory]
    exact List.suffix_cons _ _
  exact ⟨hhistory, (run_isSound (by decide) 0 _ hsuffix).2 key 6 ⟨found, 5⟩ .peeked⟩

end Assay.ProbeCache

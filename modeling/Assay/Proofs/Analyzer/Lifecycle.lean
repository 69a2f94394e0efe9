import Assay.Analyzer.Analysis
import Assay.Analyzer.Lifecycle
import Mathlib.Data.List.Chain

/-!
# Legal lifecycles

A lifecycle is legal if it starts idle, each of its phases may follow the one before, and the one it is in is
the last that it has noted. A step that is taken keeps it legal (`Lifecycle.IsLegal.enter`).
-/

namespace Assay

/-- The phases start idle, and each may follow the one before. -/
def IsLegalHistory (history : List Phase) : Prop :=
  history.head? = some .idle ∧ history.IsChain (fun p q => p.leadsTo q = true)

/-- Every run that is not over may fail. -/
theorem Phase.leadsTo_failed {p : Phase} (h : p.isFinal = false) : p.leadsTo .failed = true := by
  simp [Phase.leadsTo, h]

namespace Lifecycle

variable {l l' : Lifecycle} {target : Phase}

/-- All phases that were noted follow one another, up to the one that the lifecycle is in. -/
structure IsLegal (l : Lifecycle) : Prop where
  noted : IsLegalHistory l.history
  last : l.history.getLast? = some l.phase

/-- The lifecycle in another phase, which it notes. -/
def enter (l : Lifecycle) (target : Phase) : Lifecycle :=
  { l with phase := target, history := l.history ++ [target] }

@[simp] theorem enter_history (l : Lifecycle) (target : Phase) :
    (l.enter target).history = l.history ++ [target] := rfl

theorem advance_eq_ok : l.advance target = .ok l' ↔ l.phase.leadsTo target = true ∧ l.enter target = l' := by
  unfold advance
  split
  · next h => simp [h, enter]
  · next h => simp [h]

theorem advance_of_leadsTo (h : l.phase.leadsTo target = true) : l.advance target = .ok (l.enter target) :=
  advance_eq_ok.mpr ⟨h, rfl⟩

theorem isLegal_start (tool : String) : IsLegal { tool } :=
  ⟨⟨rfl, List.IsChain.singleton _⟩, rfl⟩

/-- A step that may be taken keeps a lifecycle legal. -/
theorem IsLegal.enter (hl : l.IsLegal) (h : l.phase.leadsTo target = true) : (l.enter target).IsLegal := by
  refine ⟨⟨?_, ?_⟩, List.getLast?_concat⟩
  · rw [enter_history, List.head?_append, hl.noted.1]
    rfl
  · rw [enter_history, List.isChain_append]
    refine ⟨hl.noted.2, List.IsChain.singleton _, ?_⟩
    -- the step is taken from the phase that was noted last
    intro p hp q hq
    rw [hl.last] at hp
    obtain rfl := Option.some.inj hp
    obtain rfl := Option.some.inj hq
    exact h

end Lifecycle

/-!
## Parts of a run

What a part of a run ensures is said of both of its ends: the value that it goes on with, and the reason
why it stops (`Session.Ensures`). One rule for each way to build a part takes such a statement apart.
-/

/-- What the run has come to, in another phase. -/
def Progress.enter {σ : Type} (p : Progress σ) (target : Phase) : Progress σ :=
  { p with lifecycle := p.lifecycle.enter target }

namespace Session

variable {σ α β : Type} {Q Q' : α → Progress σ → Prop} {R : β → Progress σ → Prop}
  {E E' : Stop → Progress σ → Prop} {p : Progress σ}

/-- `Q` holds of the value that the part ends with, or `E` of why it stops. -/
def Ensures (x : Session σ α) (Q : α → Progress σ → Prop) (E : Stop → Progress σ → Prop)
    (p : Progress σ) : Prop :=
  match x.run.run p with
  | (.ok value, p') => Q value p'
  | (.error stop, p') => E stop p'

theorem Ensures.imp {x : Session σ α} (h : Ensures x Q E p) (hQ : ∀ value p', Q value p' → Q' value p')
    (hE : ∀ stop p', E stop p' → E' stop p') : Ensures x Q' E' p := by
  unfold Ensures at h ⊢
  split
  · next value p' hx =>
    rw [hx] at h
    exact hQ value p' h
  · next stop p' hx =>
    rw [hx] at h
    exact hE stop p' h

theorem ensures_bind {x : Session σ α} {f : α → Session σ β} :
    Ensures (x >>= f) R E p ↔ Ensures x (fun value => Ensures (f value) R E) E p := by
  unfold Ensures
  rw [ExceptT.run_bind, StateT.run_bind]
  rcases x.run.run p with ⟨value | stop, p'⟩
  · rfl
  · rfl

/-- What one part ensures, the next one starts from. -/
theorem Ensures.bind {x : Session σ α} {f : α → Session σ β} (hx : Ensures x Q E p)
    (hf : ∀ value p', Q value p' → Ensures (f value) R E p') : Ensures (x >>= f) R E p := by
  rw [ensures_bind]
  exact hx.imp hf fun stop p' h => h

theorem ensures_pure {value : α} : Ensures (pure value : Session σ α) Q E p ↔ Q value p := Iff.rfl

theorem ensures_throw {stop : Stop} : Ensures (throw stop : Session σ α) Q E p ↔ E stop p := Iff.rfl

theorem ensures_get {Q : Progress σ → Progress σ → Prop} :
    Ensures (get : Session σ (Progress σ)) Q E p ↔ Q p p := Iff.rfl

theorem ensures_modify {f : Progress σ → Progress σ} {Q : Unit → Progress σ → Prop} :
    Ensures (modify f : Session σ Unit) Q E p ↔ Q () (f p) := Iff.rfl

/-- A phase that may follow is entered. -/
theorem ensures_advance {target : Phase} {Q : Unit → Progress σ → Prop}
    (h : p.lifecycle.phase.leadsTo target = true) :
    Ensures (advance target : Session σ Unit) Q E p ↔ Q () (p.enter target) := by
  unfold advance
  rw [ensures_bind, ensures_get]
  simp only [Lifecycle.advance_of_leadsTo h, ensures_modify]
  rfl

theorem ensures_warn {texts : List String} {Q : Unit → Progress σ → Prop} :
    Ensures (warn texts : Session σ Unit) Q E p ↔
      Q () { p with warnings := p.warnings ++ texts } := Iff.rfl

theorem ensures_refuse {problem : Option Problem} {Q : Unit → Progress σ → Prop} :
    Ensures (refuse problem : Session σ Unit) Q E p ↔
      (problem = none → Q () p) ∧ (∀ e, problem = some e → E (.problem e) p) := by
  unfold refuse
  cases problem with
  | none => simp [ensures_pure]
  | some e => simp [ensures_throw]

theorem ensures_lift {e : Except Failure α} :
    Ensures (lift e : Session σ α) Q E p ↔
      (∀ value, e = .ok value → Q value p) ∧ (∀ f, e = .error f → E (.ofFailure f) p) := by
  unfold lift
  cases e with
  | error f => simp [ensures_throw]
  | ok value => simp [ensures_pure]

/-- The surroundings are left as the step leaves them, whatever it comes to. -/
theorem ensures_perform {step : σ → Except Failure α × σ} :
    Ensures (perform step) Q E p ↔
      Ensures (lift (step p.world).1) Q E { p with world := (step p.world).2 } := by
  unfold perform
  rw [ensures_bind, ensures_get]
  simp only [ensures_bind, ensures_modify]

end Session

end Assay

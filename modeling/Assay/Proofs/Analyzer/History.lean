import Assay.Proofs.Analyzer.Lifecycle

/-!
# What a run has gone through

A run is called upon to go on to some phase or to give up, in any order (`Call`). A call that is refused is
passed over, so a run has a legal history after any row of calls (`IsLegal.after`). What such a history can look
like is read off its steps: a phase that ends a run is the last one (`eq_nil_of_isFinal`), and before a run is
done it goes on by the table of steps (`exists_successor`). The main result is `history_spec`.
-/

namespace Assay

namespace Phase

/-- One phase may come right after another: the table of steps says so, or a run that is not over fails. -/
def Precedes (p q : Phase) : Prop := q ∈ p.successors ∨ (q = .failed ∧ p ≠ .done ∧ p ≠ .failed)

variable {p q : Phase} {before after : List Phase}

theorem leadsTo_iff : p.leadsTo q = true ↔ p.Precedes q := by
  unfold leadsTo Precedes
  split
  · next hq =>
    obtain rfl := eq_of_beq hq
    cases p <;> decide
  · next hq =>
    have hne : q ≠ .failed := fun h => hq (beq_iff_eq.mpr h)
    rw [List.contains_iff_mem, or_iff_left fun h => hne h.1]

theorem isFinal_iff : p.isFinal = true ↔ p = .done ∨ p = .failed := by
  cases p <;> decide

theorem not_precedes_of_isFinal (h : p.isFinal = true) : ¬ p.Precedes q := by
  rcases isFinal_iff.mp h with rfl | rfl
  · simp [Precedes, successors]
  · simp [Precedes, successors]

theorem eq_nil_of_isFinal (h : (before ++ p :: after).IsChain Precedes) (hp : p.isFinal = true) :
    after = [] := by
  cases after with
  | nil => rfl
  | cons q rest =>
      have hpq := (List.isChain_append_cons_cons.mp h).2.1
      exact absurd hpq (not_precedes_of_isFinal hp)

/-- Before a run is done it goes on by the table of steps. -/
theorem exists_successor (h : (before ++ p :: after).IsChain Precedes) (hdone : .done ∈ after) :
    ∃ q rest, after = q :: rest ∧ q ∈ p.successors := by
  cases after with
  | nil => exact absurd hdone List.not_mem_nil
  | cons q rest =>
      rcases (List.isChain_append_cons_cons.mp h).2.1 with hmem | ⟨rfl, -⟩
      · exact ⟨q, rest, rfl, hmem⟩
      · -- after a failure there is nothing, so the run is not done
        rw [List.append_cons] at h
        rw [eq_nil_of_isFinal h rfl] at hdone
        exact absurd hdone (by decide)

/-- The same where the table has one step only. -/
theorem exists_rest (h : (before ++ p :: after).IsChain Precedes) (hdone : .done ∈ after)
    (hstep : p.successors = [q]) (hq : q ≠ .done) : ∃ rest, after = q :: rest ∧ .done ∈ rest := by
  obtain ⟨q', rest, rfl, hmem⟩ := exists_successor h hdone
  rw [hstep, List.mem_singleton] at hmem
  subst hmem
  exact ⟨rest, rfl, (List.mem_cons.mp hdone).resolve_left hq.symm⟩

/-- A run is done only after it has gone through the phases before its commands. -/
theorem exists_of_done_mem (h : (Phase.idle :: after).IsChain Precedes) (hdone : .done ∈ after) :
    ∃ rest, Phase.idle :: after = [.idle, .probing, .probed, .validatingInputs] ++ rest ∧ .done ∈ rest := by
  obtain ⟨rest, rfl, hprobing⟩ := @exists_rest .idle .probing [] _ h hdone rfl (by decide)
  obtain ⟨rest, rfl, hprobed⟩ := @exists_rest .probing .probed [.idle] _ h hprobing rfl (by decide)
  obtain ⟨rest, rfl, hchecked⟩ :=
    @exists_rest .probed .validatingInputs [.idle, .probing] _ h hprobed rfl (by decide)
  exact ⟨rest, rfl, hchecked⟩

end Phase

namespace Lifecycle

open Phase

/-! ## Calls -/

/-- What a run is called upon to do. -/
inductive Call where
  | advance (target : Phase)
  | fail
deriving Repr, DecidableEq

/-- The phase that a call asks for. -/
def Call.target : Call → Phase
  | .advance target => target
  | .fail => .failed

/-- Does what is asked for. -/
def call (l : Lifecycle) : Call → Except Breach Lifecycle
  | .advance target => l.advance target
  | .fail => l.fail

/-- The run after a call. A call that is refused is passed over. -/
def afterCall (l : Lifecycle) (c : Call) : Lifecycle :=
  match l.call c with
  | .ok l' => l'
  | .error _ => l

/-- The run after some calls, one after another. -/
def after (l : Lifecycle) (calls : List Call) : Lifecycle := calls.foldl afterCall l

variable {l : Lifecycle} {c : Call} {calls : List Call} {b : Breach}

theorem call_eq (l : Lifecycle) (c : Call) : l.call c = l.advance c.target := by
  cases c <;> rfl

theorem call_eq_error : l.call c = .error b ↔
    ¬ l.phase.Precedes c.target ∧ b = .illegalStep (l.complaint c.target) := by
  rw [call_eq, advance, ← leadsTo_iff]
  split
  · next h => simp [h]
  · next h => simp [h, eq_comm]

theorem afterCall_cases (l : Lifecycle) (c : Call) :
    (l.phase.Precedes c.target ∧ l.afterCall c = l.enter c.target) ∨
      (¬ l.phase.Precedes c.target ∧ l.afterCall c = l) := by
  unfold afterCall
  cases h : l.call c with
  | ok l' =>
      rw [call_eq, advance_eq_ok, leadsTo_iff] at h
      exact .inl ⟨h.1, h.2.symm⟩
  | error b => exact .inr ⟨(call_eq_error.mp h).1, rfl⟩

theorem after_append (l : Lifecycle) (calls later : List Call) :
    l.after (calls ++ later) = (l.after calls).after later :=
  List.foldl_append

theorem IsLegal.afterCall (h : l.IsLegal) (c : Call) : (l.afterCall c).IsLegal := by
  rcases afterCall_cases l c with ⟨hstep, heq⟩ | ⟨-, heq⟩
  · rw [heq]
    exact h.enter (leadsTo_iff.mpr hstep)
  · rwa [heq]

theorem IsLegal.after (h : l.IsLegal) (calls : List Call) : (l.after calls).IsLegal := by
  induction calls generalizing l with
  | nil => exact h
  | cons c calls ih => exact ih (h.afterCall c)

theorem IsLegal.isChain (h : l.IsLegal) : l.history.IsChain Precedes :=
  h.noted.2.imp fun _ _ => leadsTo_iff.mp

theorem after_of_isFinal (h : l.phase.isFinal = true) (calls : List Call) : l.after calls = l := by
  induction calls with
  | nil => rfl
  | cons c calls ih =>
      rcases afterCall_cases l c with ⟨hstep, -⟩ | ⟨-, heq⟩
      · exact absurd hstep (not_precedes_of_isFinal h)
      · show (l.afterCall c).after calls = l
        rw [heq, ih]

theorem IsLegal.countP_isFinal (h : l.IsLegal) : l.history.countP Phase.isFinal ≤ 1 := by
  obtain ⟨past, hpast⟩ := List.getLast?_eq_some_iff.mp h.last
  have hchain := h.isChain
  rw [hpast] at hchain ⊢
  have hnone : past.countP Phase.isFinal = 0 := by
    rw [List.countP_eq_zero]
    intro p hp hfinal
    obtain ⟨before, after, rfl⟩ := List.append_of_mem hp
    rw [List.append_assoc, List.cons_append] at hchain
    exact absurd (eq_nil_of_isFinal hchain hfinal) (by simp)
  rw [List.countP_append, hnone, Nat.zero_add]
  exact List.countP_le_length

/-- Where a run is done, each command was read. -/
theorem IsLegal.head?_after_running (h : l.IsLegal) (hdone : .done ∈ l.history) {before rest : List Phase}
    (hsplit : l.history = before ++ .running :: rest) : rest.head? = some .parsing := by
  have hchain := h.isChain
  rw [hsplit] at hchain hdone
  have hrest : .done ∈ rest := by
    rcases List.mem_append.mp hdone with hbefore | hmem
    · obtain ⟨front, back, rfl⟩ := List.append_of_mem hbefore
      rw [List.append_assoc, List.cons_append] at hchain
      exact absurd (eq_nil_of_isFinal hchain rfl) (by simp)
    · exact (List.mem_cons.mp hmem).resolve_left (by decide)
  obtain ⟨_, rfl, -⟩ := exists_rest hchain hrest rfl (by decide)
  rfl

theorem advance_of_refused {σ : Type} {p : Progress σ} (h : p.lifecycle.call c = .error b) :
    (Session.advance c.target).run.run p = (.error (.breach b), p) := by
  rw [call_eq] at h
  unfold Session.advance
  rw [ExceptT.run_bind, StateT.run_bind]
  show ((match p.lifecycle.advance c.target with
    | .ok lifecycle => modify fun p => { p with lifecycle }
    | .error b => throw (.breach b) : Session σ Unit)).run.run p = _
  rw [h]
  rfl

/-- **What a run has gone through** after any calls. Its history starts idle, ends with the phase it is in, and
goes by the table of steps but for a failure. A refused call changes nothing, also in a session. A phase that
ends a run is the last one, and all further calls are refused. A run that is done has gone through the phases
before its commands, and each of its commands was read. -/
theorem history_spec (tool : String) (calls : List Call) :
    (after { tool } calls).history.head? = some .idle ∧
      (after { tool } calls).history.getLast? = some (after { tool } calls).phase ∧
      (after { tool } calls).history.IsChain
        (fun p q => q ∈ p.successors ∨ (q = .failed ∧ p ≠ .done ∧ p ≠ .failed)) ∧
      (∀ c b, (after { tool } calls).call c = .error b →
        after { tool } (calls ++ [c]) = after { tool } calls ∧
          ∀ (σ : Type) (p : Progress σ), p.lifecycle = after { tool } calls →
            (Session.advance c.target).run.run p = (.error (.breach b), p)) ∧
      (after { tool } calls).history.countP Phase.isFinal ≤ 1 ∧
      (∀ before p rest, (after { tool } calls).history = before ++ p :: rest → p = .done ∨ p = .failed →
        rest = []) ∧
      ((after { tool } calls).phase = .done ∨ (after { tool } calls).phase = .failed →
        ∀ later c, ∃ b, (after { tool } (calls ++ later)).call c = .error b) ∧
      (.done ∈ (after { tool } calls).history →
        (∃ rest, (after { tool } calls).history = [.idle, .probing, .probed, .validatingInputs] ++ rest ∧
            .done ∈ rest) ∧
          ∀ before rest, (after { tool } calls).history = before ++ .running :: rest →
            rest.head? = some .parsing) := by
  have hlegal : (after { tool } calls).IsLegal := (isLegal_start tool).after calls
  refine ⟨hlegal.noted.1, hlegal.last, hlegal.isChain, ?refused, hlegal.countP_isFinal, ?last, ?ended, ?done⟩
  case refused =>
    intro c b h
    constructor
    · rw [after_append]
      show ((after { tool } calls).afterCall c) = _
      rw [afterCall, h]
    · rintro σ p hp
      rw [← hp] at h
      -- a session turns the refused call of its lifecycle into a failure of the step
      exact advance_of_refused h
  case last =>
    intro before p rest hsplit hp
    have hchain := hlegal.isChain
    rw [hsplit] at hchain
    exact eq_nil_of_isFinal hchain (isFinal_iff.mpr hp)
  case ended =>
    intro hp later c
    have hfinal := isFinal_iff.mpr hp
    rw [after_append, after_of_isFinal hfinal]
    exact ⟨_, call_eq_error.mpr ⟨not_precedes_of_isFinal hfinal, rfl⟩⟩
  case done =>
    intro hdone
    refine ⟨?_, fun before rest => hlegal.head?_after_running hdone⟩
    have hchain := hlegal.isChain
    obtain ⟨rest, hrest⟩ := List.head?_eq_some_iff.mp hlegal.noted.1
    rw [hrest] at hchain hdone ⊢
    exact exists_of_done_mem hchain ((List.mem_cons.mp hdone).resolve_left (by decide))

end Lifecycle

end Assay

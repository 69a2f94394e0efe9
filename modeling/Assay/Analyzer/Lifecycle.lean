import Assay.Problem
import Assay.Vocabulary

/-!
# The lifecycle of a run

The run of a tool goes through fixed phases. Running and parsing alternate, once for every command; a
tool with nothing to run goes on from the check of its inputs. From every phase but the last two a run
may fail.

`Phase.successors` is the table of steps, `Lifecycle.advance` takes one and refuses all others.
-/

namespace Assay

/-- The phases of a run. -/
inductive Phase where
  | idle
  | probing
  | probed
  | validatingInputs
  | running
  | parsing
  | normalizing
  | done
  | failed
deriving Repr, DecidableEq, Inhabited

namespace Phase

instance : Vocabulary Phase where
  title := "AdapterState"
  members := [idle, probing, probed, validatingInputs, running, parsing, normalizing, done, failed]
  name
    | idle => "idle"
    | probing => "probing"
    | probed => "probed"
    | validatingInputs => "validating-inputs"
    | running => "running"
    | parsing => "parsing"
    | normalizing => "normalizing"
    | done => "done"
    | failed => "failed"

/-- The name of a phase. -/
def name (p : Phase) : String := Vocabulary.name p

/-- The phases that may follow a phase, failure apart. -/
def successors : Phase → List Phase
  | idle => [probing]
  | probing => [probed]
  | probed => [validatingInputs]
  | validatingInputs => [running, normalizing, done]
  | running => [parsing]
  | parsing => [running, normalizing]
  | normalizing => [done]
  | done => []
  | failed => []

/-- A run in this phase is over. -/
def isFinal : Phase → Bool
  | done | failed => true
  | _ => false

/-- One phase may follow another. -/
def leadsTo (p q : Phase) : Bool :=
  if q == failed then !p.isFinal else p.successors.contains q

end Phase

/-- A run of a tool: the phase it is in, and what it has noted of all its phases so far. -/
structure Lifecycle where
  tool : String
  phase : Phase := .idle
  history : List Phase := [.idle]
deriving Repr, DecidableEq, Inhabited

namespace Lifecycle

/-- The complaint about a step that there is not. -/
def complaint (l : Lifecycle) (target : Phase) : String :=
  if target == .failed then l.tool ++ ": cannot fail after reaching " ++ l.phase.name
  else l.tool ++ ": illegal transition " ++ l.phase.name ++ " -> " ++ target.name

/-- Goes on to another phase, and notes it. -/
def advance (l : Lifecycle) (target : Phase) : Except Breach Lifecycle :=
  if l.phase.leadsTo target then .ok { l with phase := target, history := l.history ++ [target] }
  else .error (.illegalStep (l.complaint target))

/-- Gives up. -/
def fail (l : Lifecycle) : Except Breach Lifecycle := l.advance .failed

end Lifecycle

end Assay

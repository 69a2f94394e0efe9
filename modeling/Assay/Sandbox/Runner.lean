import Assay.Files.Tree
import Assay.Sandbox.Capture
import Assay.Sandbox.Policy

/-!
# Runners

A runner is what starts commands. It is a value like any other: a step from one state of the
surroundings to the next, and a clock that reads that state. What a tool makes of the outcomes is the
same for every runner.

A rehearsal is a runner that starts nothing. It checks the arguments of every call as a sandbox would, answers
by a given rule, and keeps the calls.
-/

namespace Assay.Sandbox

open Files

/-- The start of a command. -/
structure Call where
  policy : Policy
  /-- The arguments after the fixed ones. -/
  arguments : List String
  workingDirectory : Path
  timeoutMs : Int
  maxOutputBytes : Nat
  gracePeriodMs : Nat := 2000
  /-- The run as a whole has been cancelled already. -/
  cancelled : Bool := false
  /-- The files laid out for the command, by their paths. -/
  inputs : List (Path × String) := []
  /-- The file that the command is told to write its report to. -/
  reportFile : Option Path := none
deriving Repr, Inhabited

/-- All arguments of a call, in order. -/
def Call.allArguments (c : Call) : List String := c.policy.arguments c.arguments

/-- What comes of a call: how the command ended, and its report if it wrote one. -/
structure Reply where
  outcome : Outcome
  report : Option Content := none
deriving Repr, Inhabited

/-- A runner over states of the surroundings. -/
structure Runner (σ : Type) where
  /-- Starts a command and waits for its end. -/
  run : Call → σ → Except Failure Reply × σ
  /-- The microseconds since the start of 1970. -/
  clock : σ → Nat

/-- A runner whose surroundings hold files. -/
structure Host (σ : Type) extends Runner σ where
  /-- The files in a state of the surroundings. -/
  tree : σ → Tree

/-- The first whole number that is rounded to no double: half the gap above the largest of them. -/
@[irreducible] def beyondDoubles : Nat := Nat.pow 2 1024 - Nat.pow 2 970

/-- Checks that a time can be counted in seconds, which are doubles. -/
def checkTime (milliseconds : Int) : Except Breach Unit :=
  if beyondDoubles * 1000 ≤ milliseconds.natAbs then .error .oversizedQuotient else .ok ()

/-- The milliseconds from one reading of a clock to a deadline, of which some part has always gone by
when they are asked for. A deadline can be so far that they are beyond all doubles. -/
def remainingMs (now deadline : Nat) : Except Breach Int :=
  let left : Int := (deadline : Int) - (now + 1)
  if (beyondDoubles : Int) * 1000 ≤ left then .error .infiniteNumber else .ok (left / 1000)

/-- The calls of a rehearsal so far. -/
abbrev Rehearsal := List Call

/-- The time that a call takes in a rehearsal, in microseconds. -/
def rehearsedTime : Nat := 1000

/-- A runner that answers by a rule from the earlier calls and the one at hand. -/
def rehearse (answer : List Call → Call → Except Failure Reply) : Runner Rehearsal where
  run call calls :=
    let reply := match checkArguments call.policy.allowedArguments call.allArguments with
      | .error fault => .error (.problem fault.problem)
      | .ok () => answer calls call
    (reply, calls ++ [call])
  clock calls := calls.length * rehearsedTime

end Assay.Sandbox

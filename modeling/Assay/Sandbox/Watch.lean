import Assay.Sandbox.Capture

/-!
# Watching a command

A running command is looked at from time to time. At the first look at which its output has overflowed,
the run has been cancelled, or its time is over, it is told to end; if it has not ended when the period
of grace is over, it is killed.

A `Watch` follows one command on a clock of its own. The command says how it goes on with `advance` and
`write`, and hears from the first which signal it has to deal with.
-/

namespace Assay.Sandbox

/-- Microseconds since the start of a command. -/
abbrev Time := Nat

/-- The time between two looks at a command. -/
def lookInterval : Time := 20000

/-- The time after which a stream that has overflowed is found closed. -/
def closingTime : Time := 1000

/-- The first look at or after some time. -/
def firstLookFrom (t : Time) : Time := (t + (lookInterval - 1)) / lookInterval * lookInterval

/-- The first look after some time. -/
def firstLookAfter (t : Time) : Time := (t / lookInterval + 1) * lookInterval

/-- What a command is given: time, room for each of its streams, and a period of grace. -/
structure Allowance where
  timeoutMs : Int
  graceMs : Int
  maxOutputBytes : Nat
  /-- The run has been cancelled before the command starts. -/
  cancelled : Bool := false
deriving Repr

/-- Why a command is told to end. -/
inductive StopReason where
  | overflowed
  | cancelled
  | timedOut
deriving Repr, DecidableEq

/-- What a command is told from outside. -/
inductive Notice where
  /-- It may still clean up. -/
  | terminate
  /-- It ends at once. -/
  | kill
deriving Repr, DecidableEq

/-- The number of the signal that carries a notice. -/
def Notice.signal : Notice → Nat
  | terminate => 15
  | kill => 9

/-- What a command has written to one stream. -/
structure Stream where
  /-- The pieces that were written, the last one first. -/
  pieces : List Bytes := []
  size : Nat := 0
  /-- When the stream overflowed. -/
  overflowAt : Option Time := none
deriving Repr

/-- A further piece is written, of which as much is kept as there is room for. -/
def Stream.push (cap : Nat) (now : Time) (piece : Bytes) (s : Stream) : Stream :=
  if piece.isEmpty || s.overflowAt.isSome then s
  else
    { pieces := piece :: s.pieces
      size := s.size + piece.length
      overflowAt := if cap ≤ s.size + piece.length then some now else none }

/-- All that was written to a stream while somebody read it. -/
def Stream.bytes (s : Stream) : Bytes := s.pieces.reverse.flatten

/-- What is captured of a stream. -/
def Stream.captured (cap : Nat) (s : Stream) : Captured UInt8 :=
  if s.overflowAt.isSome then capture cap s.bytes else ⟨s.bytes, false⟩

/-- Nobody reads the stream any more. -/
def Stream.isClosed (now : Time) (s : Stream) : Bool :=
  match s.overflowAt with
  | some t => t + closingTime ≤ now
  | none => false

/-- The streams that a command writes to. -/
inductive Channel where
  | output
  | errors
deriving Repr, DecidableEq

/-- A command under watch. -/
structure Watch where
  allowance : Allowance
  now : Time := 0
  output : Stream := {}
  errors : Stream := {}
  /-- When and why the command was told to end. -/
  stopped : Option (Time × StopReason) := none
deriving Repr

namespace Watch

/-- When a stream overflowed first. -/
def overflowAt (w : Watch) : Option Time :=
  match w.output.overflowAt, w.errors.overflowAt with
  | some a, some b => some (min a b)
  | some a, none => some a
  | none, b => b

/-- The earlier of two stops, the first of them if they fall together. -/
def earlier (a b : Time × StopReason) : Time × StopReason := if b.1 < a.1 then b else a

/-- When and why the command will be told to end if it goes on. -/
def stop (w : Watch) : Time × StopReason :=
  let timeout := (firstLookFrom (w.allowance.timeoutMs * 1000).toNat, StopReason.timedOut)
  let cancel := if w.allowance.cancelled then earlier (0, .cancelled) timeout else timeout
  match w.overflowAt with
  | some t => earlier (firstLookAfter t, .overflowed) cancel
  | none => cancel

/-- The next notice and its time. -/
def next (w : Watch) : Time × Notice :=
  match w.stopped with
  | none => (w.stop.1, .terminate)
  | some (t, _) => (t + (w.allowance.graceMs * 1000).toNat, .kill)

/-- Time goes by, until the command is told something. -/
def advance (d : Time) (w : Watch) : Watch × Option Notice :=
  let (t, notice) := w.next
  if t ≤ w.now + d then
    let stopped := match notice with
      | .terminate => some w.stop
      | .kill => w.stopped
    ({ w with now := max w.now t, stopped }, some notice)
  else ({ w with now := w.now + d }, none)

/-- Time goes by until the command is told something. -/
def idle (w : Watch) : Watch × Notice :=
  match w.advance (w.next.1 - w.now) with
  | (w, some notice) => (w, notice)
  | (w, none) => (w, .kill)

/-- The command writes something; `none` if nobody reads it any more. -/
def write (channel : Channel) (piece : Bytes) (w : Watch) : Option Watch :=
  let cap := w.allowance.maxOutputBytes
  match channel with
  | .output =>
    if w.output.isClosed w.now then none
    else some { w with output := w.output.push cap w.now piece }
  | .errors =>
    if w.errors.isClosed w.now then none
    else some { w with errors := w.errors.push cap w.now piece }

/-- What came of a command that ended with some exit code. -/
def outcome (exitCode : Int) (w : Watch) : Outcome :=
  let cap := w.allowance.maxOutputBytes
  let output := w.output.captured cap
  let errors := w.errors.captured cap
  let reason := w.stopped.map (·.2)
  { exitCode
    stdout := output.kept
    stderr := errors.kept
    timedOut := reason == some .timedOut
    overflowed := output.overflowed || errors.overflowed
    cancelled := reason == some .cancelled }

end Watch

end Assay.Sandbox

import Assay.Sandbox.Policy
import Assay.Sandbox.Watch
import Assay.Shell.Script
import Assay.Shell.Utility

/-!
# Running shells

The state of a running shell, and the things that it does: let time go by, hear a signal, write, and
end. Whatever it does, it does under watch.
-/

namespace Assay.Shell

open Sandbox Files

/-- Where output goes. -/
inductive Sink where
  | stream (channel : Channel)
  | file (path : Path)
  /-- It is kept, to become a value or the input of another command. -/
  | buffer
  | nowhere
deriving Repr

/-- A running shell. -/
structure State where
  /-- The files, looked at from the directory in which the shell works. -/
  tree : Tree
  watch : Watch
  /-- The name it was started by. -/
  name : String
  arguments : List String := []
  bindings : Environment := []
  exported : List String := []
  functions : List (String × Command) := []
  /-- The variables of the function at hand, with the values that they had before. -/
  locals : List (String × Option String) := []
  /-- The loops around the command at hand. -/
  loops : Nat := 0
  status : Nat := 0
  /-- What is run on a signal; an empty text means that the signal is ignored, and the number zero
  stands for the end of the shell. -/
  traps : List (Nat × String) := []
  /-- The signals that have come in and have something to be run. -/
  due : List Nat := []
  input : Bytes := []
  sinks : List (Nat × Sink) := [(1, .stream .output), (2, .stream .errors)]
  /-- When the last of the commands that run beside the shell comes to its end. -/
  busyUntil : Time := 0
  /-- What has gone to the buffer. -/
  buffer : Bytes := []
  /-- It ends at the first command that ends badly. -/
  endsOnFailure : Bool := false
  /-- A variable without a value is an error. -/
  needsValues : Bool := false

/-- Why a shell does not go on with the next command. -/
inductive Halt where
  | ended
  | broken (levels : Nat)
  | continued (levels : Nat)
  | returned
  | killed (signal : Nat)
deriving Repr, DecidableEq

/-- Something that a shell does. -/
abbrev Action (α : Type) := ExceptT Halt (StateM State) α

/-- The time that a command of the shell itself takes. -/
def ownTime : Time := 20

/-- The time that it takes to start another program. -/
def startTime : Time := 1000

/-- The signals by name. -/
def signalNumbers : List (String × Nat) :=
  [("EXIT", 0), ("HUP", 1), ("INT", 2), ("QUIT", 3), ("ABRT", 6), ("KILL", 9), ("USR1", 10),
    ("SEGV", 11), ("USR2", 12), ("PIPE", 13), ("ALRM", 14), ("TERM", 15)]

/-- The number of a signal by its name or number. -/
def signalNumber? (s : String) : Option Nat :=
  let name := match Text.dropStart? "SIG".toList s.toList with
    | some rest => String.ofList rest
    | none => s
  (signalNumbers.lookup name).or ((wholeNumber? s).map Int.toNat)

/-- What is said of a command that a signal ended. -/
def signalText : Nat → Option String
  | 1 => some "Hangup"
  | 3 => some "Quit"
  | 6 => some "Aborted"
  | 9 => some "Killed"
  | 10 => some "User defined signal 1"
  | 11 => some "Segmentation fault"
  | 12 => some "User defined signal 2"
  | 14 => some "Alarm clock"
  | 15 => some "Terminated"
  | _ => none

/-- The signal that ends a command whose output nobody reads. -/
def brokenPipe : Nat := 13

/-- The exit code of a command that a signal ended. -/
def statusOfSignal (signal : Nat) : Nat := 128 + signal

namespace Action

/-- What comes of an action on a shell: how it ended, and the shell after it. -/
def doneOn {α : Type} (action : Action α) (s : State) : Except Halt α × State :=
  StateT.run (ExceptT.run action) s

/-- The command that was run last ended like this. -/
def endWith (status : Nat) : Action Unit := modify fun s => { s with status }

/-- The shell ends. -/
def leave {α : Type} (status : Nat) : Action α := do
  endWith status
  throw .ended

/-- A signal arrives: `true` if it is ignored. -/
def hear (signal : Nat) : Action Bool := do
  let s ← get
  if signal == Notice.kill.signal then throw (.killed signal)
  match s.traps.lookup signal with
  | none => throw (.killed signal)
  | some handler =>
    if handler.isEmpty then return true
    set { s with due := s.due ++ [signal] }
    return false

/-- Lets time go by up to the next notice: the time that is left, if there was one that is not
ignored or none. -/
def passOnce (d : Time) : Action (Option Time) := do
  let s ← get
  let (watch, notice) := s.watch.advance d
  set { s with watch }
  match notice with
  | none => return some 0
  | some notice =>
    if ← hear notice.signal then return some (s.watch.now + d - watch.now) else return none

/-- Lets time go by: `false` if a signal cut it short. After the first notice there can only be the
one that kills. -/
def pass (d : Time) : Action Bool := do
  match ← passOnce d with
  | none => return false
  | some 0 => return true
  | some rest => return (← passOnce rest).isSome

/-- Waits until it is killed. -/
def hang {α : Type} : Action α := do
  let s ← get
  let (watch, notice) := s.watch.idle
  set { s with watch }
  if notice == .terminate then
    match s.traps.lookup notice.signal with
    | none => throw (.killed notice.signal)
    | some _ => modify fun s => { s with watch := s.watch.idle.1 }
  throw (.killed Notice.kill.signal)

/-- Writes to a descriptor. -/
def emit (descriptor : Nat) (bytes : Bytes) : Action Unit := do
  let s ← get
  if bytes.isEmpty then return
  match (s.sinks.lookup descriptor).getD .nowhere with
  | .nowhere => return
  | .buffer => set { s with buffer := s.buffer ++ bytes }
  | .file path =>
    let old := ((s.tree.read? path).map Content.toText).getD ""
    set { s with tree := s.tree.write path (old ++ textOf bytes) }
  | .stream channel =>
    match s.watch.write channel bytes with
    | some watch => set { s with watch }
    | none => throw (.killed brokenPipe)

/-- Writes to the standard output. -/
def print (bytes : Bytes) : Action Unit := emit 1 bytes

/-- A complaint about the script at a line. -/
def complain (line : Nat) (text : String) : Action Unit := do
  let s ← get
  emit 2 (Shell.line (s.name ++ ": " ++ Decimal.natText line ++ ": " ++ text))

/-- Does what a utility did. -/
def finish (done : Done) : Action Unit := do
  print done.output
  emit 2 (Text.Utf8.encode done.errors)
  endWith done.status

/-- Runs an action whose output is collected; its changes to the shell are kept. -/
def collecting (action : Action Unit) : Action Bytes := do
  let s ← get
  set { s with sinks := (1, .buffer) :: s.sinks.filter (·.1 != 1), buffer := [] }
  action
  let found := (← get).buffer
  modify fun now => { now with sinks := s.sinks, buffer := s.buffer }
  return found

/-- Runs an action in a shell of its own, which leaves only its files, its time and its end behind. -/
def apart (action : Action Unit) : Action Unit := do
  let s ← get
  let inner := { s with traps := s.traps.filter fun (_, handler) => handler.isEmpty }
  let (result, after) := doneOn action inner
  let status := match result with
    | .error (.killed signal) => statusOfSignal signal
    | _ => after.status
  let heard := match result with
    | .error (.killed signal) => some signal
    | _ => none
  let workingDirectory := s.tree.workingDirectory
  set { s with tree := { after.tree with workingDirectory }, watch := after.watch, buffer := after.buffer
               input := after.input, status }
  let announce (signal : Nat) : Action Unit := do
    match signalText signal with
    | some text => emit 2 (line text)
    | none => return
  match heard with
  | none => return
  | some signal =>
    match after.watch.next with
    | (_, .kill) =>
      if signal == Notice.terminate.signal && (s.traps.lookup signal).isSome then
        announce signal
        modify fun s => { s with due := s.due ++ [signal] }
      else if signal == Notice.terminate.signal || signal == Notice.kill.signal then
        throw (.killed signal)
    | _ => announce signal

/-- Runs an action with other sinks and another input, which are the old ones again behind it. -/
def redirecting (sinks : List (Nat × Sink)) (input : Option Bytes) (action : Action Unit) :
    Action Unit := do
  let s ← get
  set { s with sinks, input := input.getD s.input }
  let restore : Action Unit := modify fun now =>
    { now with sinks := s.sinks, input := if input.isSome then s.input else now.input }
  try action catch h => do
    restore
    throw h
  restore

end Action

/-! ## Variables -/

namespace State

/-- The value of a parameter; `none` if it has none. -/
def value? (s : State) (name : String) : Option String :=
  match name with
  | "#" => some (Decimal.natText s.arguments.length)
  | "?" => some (Decimal.natText s.status)
  | "$" => some "4242"
  | "!" => none
  | "-" => some ""
  | "0" => some s.name
  | "@" | "*" => if s.arguments.isEmpty then none else some (spaced s.arguments)
  | name =>
    match name.toList with
    | c :: _ =>
      if c.isDigit then s.arguments[(Decimal.natOf name.toList) - 1]? else s.bindings.value? name
    | [] => none

/-- The shell with a variable set. -/
def assign (name value : String) (s : State) : State :=
  { s with bindings := s.bindings.set name value }

/-- The shell with a variable set back to a value, or to none. -/
def restore (name : String) (value : Option String) (s : State) : State :=
  match value with
  | some v => s.assign name v
  | none => { s with bindings := s.bindings.filter (·.1 != name) }

/-- The variables that programs started from the shell see. -/
def environment (s : State) : Environment := s.bindings.filter fun (name, _) => s.exported.contains name

end State

end Assay.Shell

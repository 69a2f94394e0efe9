import Assay.Files.Guard
import Assay.Sandbox.Runner
import Assay.Shell.Run

/-!
# Executing commands

A command is started only after its arguments, its working directory and its place on the search path
have been checked, in this order. It then runs under watch in an environment that is built anew.

`Job.executeBy` checks a command and hands it to a launcher, whatever that makes of it. `Job.launch` is the
launcher that runs commands on a tree of files, `executing` the runner that does so for calls, and `onSystem` the
host of the command.
-/

namespace Assay.Sandbox

open Files Shell

/-- A command to be executed. -/
structure Job where
  policy : Policy
  /-- The arguments after the fixed ones. -/
  arguments : List String
  workingDirectory : Path
  allowance : Allowance
  /-- What the command reads. -/
  input : Bytes := []

/-- What executing a command leaves behind: its outcome, the files, and the time that it took. -/
structure Executed where
  outcome : Outcome
  tree : Tree
  time : Time

/-- What starts the file at a path as the command of a job, in an environment. -/
abbrev Launcher := Job → Tree → Environment → String → Except Failure Executed

namespace Job

/-- The working directory is not one that a command is started in. -/
def misplaced (p : Path) : Failure :=
  Failure.of .blockedPath ("working directory " ++ p.toString ++ " is not a canonical directory")

/-- The problem of a command that the system does not start. -/
def notStarted (j : Job) : Failure := Failure.of .processSpawnFailed j.policy.command

/-- Checks that a variable can be handed to a command. -/
def checkVariable (entry : String × String) : Except Failure Unit :=
  if entry.1.toList.contains '=' then .error (.breach (.badValue "illegal environment variable name"))
  else if (entry.1 ++ entry.2).toList.contains '\x00' then .error (.breach (.badValue "embedded null byte"))
  else .ok ()

/-- Checks the arguments and the working directory of a command. -/
def check (j : Job) (t : Tree) : Except Failure Unit := do
  match checkArguments j.policy.allowedArguments (j.policy.arguments j.arguments) with
  | .error fault => throw (.problem fault.problem)
  | .ok () => pure ()
  let isPlaced := j.workingDirectory.isAbsolute && (← Tree.looked (t.isDirectory? j.workingDirectory))
  if !isPlaced then throw (misplaced j.workingDirectory)

/-- The shell in whose place a command begins. -/
def begin (j : Job) (t : Tree) (e : Environment) : State where
  tree := t
  watch := { allowance := j.allowance }
  name := j.policy.command
  bindings := e
  exported := e.map (·.1)
  input := j.input

/-- The exit code of a shell that came to its end in some way; a signal counts as its negated number. -/
def exitCode (result : Except Halt Unit) (s : State) : Int :=
  match result with
  | .error (.killed signal) => -(signal : Int)
  | _ => s.status

/-- Runs a command that has been found. -/
def runStarted (j : Job) (t : Tree) (e : Environment) (x : Started) : Executed :=
  let action : Action Unit := do
    discard <| Action.pass startTime
    Action.runBasic running (Action.becomeProgram running 1 "" Action.maxPrograms) x
  let (result, s) := Action.doneOn action (j.begin t e)
  { outcome := s.watch.outcome (exitCode result s)
    tree := s.tree
    time := s.watch.now }

/-- Executes a command by a launcher, for a parent with some environment. -/
def executeBy (launch : Launcher) (j : Job) (t : Tree) (parent : Environment) : Except Failure Executed := do
  j.check t
  let e := j.policy.environment parent
  let path ← (lookup t e j.policy.command).mapError fun fault => Failure.problem fault.problem
  for entry in e do checkVariable entry
  launch j t e path

/-- Launches a command on a tree of files. Its times are counted once it has been started. -/
def launch : Launcher := fun j t e path => do
  let inside := { t with workingDirectory := (t.realPath j.workingDirectory).parts }
  match start? inside path (j.policy.arguments j.arguments) with
  | .error _ => throw j.notStarted
  | .ok x =>
    (checkTime j.allowance.timeoutMs).mapError Failure.breach
    (checkTime j.allowance.graceMs).mapError Failure.breach
    let done := j.runStarted inside e x
    return { done with tree.workingDirectory := t.workingDirectory }

/-- Executes a command on a tree of files, for a parent with some environment. -/
def execute (j : Job) (t : Tree) (parent : Environment) : Except Failure Executed := j.executeBy launch t parent

end Job

/-- A system on which commands are executed: its files, the environment of the parent, and the
microseconds since the start of 1970. -/
structure System where
  tree : Tree
  environment : Environment
  clock : Nat := 0

/-- The job that a call asks for. -/
def Call.job (c : Call) : Job where
  policy := c.policy
  arguments := c.arguments
  workingDirectory := c.workingDirectory
  allowance :=
    { timeoutMs := c.timeoutMs, graceMs := c.gracePeriodMs, maxOutputBytes := c.maxOutputBytes
      cancelled := c.cancelled }

/-- Lays out the files of a call, and makes the directory that its report goes to. -/
def Call.layOut (c : Call) (t : Tree) : Tree :=
  let t := c.inputs.foldl (fun t (p, s) => t.write p s) t
  match c.reportFile with
  | some p => { t with top := Node.putDirectory p.parts.dropLast t.top }
  | none => t

/-- Executes calls on a system. -/
def executing : Runner System where
  run c s :=
    match c.job.execute (c.layOut s.tree) s.environment with
    | .error f => (.error f, { s with clock := s.clock + 1 })
    | .ok x =>
      (.ok { outcome := x.outcome, report := c.reportFile.bind x.tree.read? },
        { s with tree := x.tree, clock := s.clock + x.time + 1 })
  clock s := s.clock

/-- Commands are executed on the files of a system. -/
def onSystem : Host System := { executing with tree := System.tree }

end Assay.Sandbox

import Assay.Problem
import Assay.Text.Split

/-!
# Sandbox policies

A policy fixes what a tool may be run as: its command, the arguments that always come first, and which
part of the environment it sees. Every argument is checked before anything is started, although no
shell is ever involved.
-/

namespace Assay.Sandbox

/-- How a tool is run. -/
structure Policy where
  /-- The name that is looked up on the search path. -/
  command : String
  /-- The arguments that come before all others. -/
  fixedArguments : List String := []
  /-- Arguments that pass the check whatever they hold. -/
  allowedArguments : List String := []
  /-- The variables that are taken over from the parent's environment if it has them. -/
  inherited : List String := []
  /-- The variables that are set whatever the parent's environment holds. -/
  overrides : List (String × String) := []
deriving Repr, DecidableEq, Inhabited

/-- The characters that mean something to a shell. -/
def shellMarks : List Char := ";&|\x60$()\x7b\x7d[]<>*?~".toList

/-- Why an argument is refused. -/
inductive ArgumentFault where
  | nul
  | shellMark (argument : String)
deriving Repr, DecidableEq

/-- The text of a refusal. -/
def ArgumentFault.detail : ArgumentFault → String
  | nul => "argument contains a NUL byte"
  | shellMark argument => "argument " ++ Text.quoted argument ++ " contains shell metacharacters"

/-- The refusal as a problem. -/
def ArgumentFault.problem (f : ArgumentFault) : Problem := ⟨.unsafeArgument, f.detail⟩

/-- The argument has the shape of a path that starts at the root or at the working directory. -/
def isPathLike (argument : String) : Bool :=
  Text.hasStart "/" argument || Text.hasStart "./" argument

/-- The argument holds a character that means something to a shell. -/
def hasShellMark (argument : String) : Bool := argument.toList.any shellMarks.contains

/-- Refuses an argument with a NUL, and one with a shell mark that is neither a path nor allowed. -/
def checkArgument (allowed : List String) (argument : String) : Except ArgumentFault Unit :=
  if argument.toList.contains '\x00' then .error .nul
  else if !hasShellMark argument then .ok ()
  else if isPathLike argument || allowed.contains argument then .ok ()
  else .error (.shellMark argument)

/-- Checks arguments one by one. -/
def checkArguments (allowed : List String) : List String → Except ArgumentFault Unit
  | [] => .ok ()
  | argument :: rest => do
    checkArgument allowed argument
    checkArguments allowed rest

/-- All arguments of a command: the fixed ones, then the given ones. -/
def Policy.arguments (p : Policy) (given : List String) : List String := p.fixedArguments ++ given

/-!
## Environments

A tool sees an environment that is built anew: the search path, the inherited variables that the
parent has, and the overrides, where what comes later wins.
-/

/-- Variables by name. A name stands once. -/
abbrev Environment := List (String × String)

namespace Environment

/-- The environment with a variable set, in its old place if it was there. -/
def set (name value : String) : Environment → Environment
  | [] => [(name, value)]
  | (other, v) :: rest =>
    if other == name then (other, value) :: rest else (other, v) :: set name value rest

/-- The value of a variable. -/
def value? (name : String) (e : Environment) : Option String :=
  (e.find? fun entry => entry.1 == name).map (·.2)

/-- The environment with several variables set, in order. -/
def setAll (e : Environment) (entries : List (String × String)) : Environment :=
  entries.foldl (fun e (name, value) => set name value e) e

/-- The search path of a parent that has none. -/
def defaultSearchPath : String := "/bin:/usr/bin"

/-- The variable that holds the search path. -/
def searchPathName : String := "PATH"

end Environment

/-- The inherited variables that the parent has. -/
def Policy.taken (p : Policy) (parent : Environment) : List (String × String) :=
  p.inherited.filterMap fun name => (parent.value? name).map fun value => (name, value)

/-- The environment of a command under a policy. -/
def Policy.environment (p : Policy) (parent : Environment) : Environment :=
  let path := (parent.value? Environment.searchPathName).getD Environment.defaultSearchPath
  Environment.setAll (Environment.setAll [(Environment.searchPathName, path)] (p.taken parent)) p.overrides

end Assay.Sandbox

import Assay.Files.Tree
import Assay.Sandbox.Policy

/-!
# Looking up commands

A command is a bare name. It is the first file of that name that may be executed in the directories of
the search path, taken in order.
-/

namespace Assay.Sandbox

open Files

/-- Why a command cannot be found. -/
inductive LookupFault where
  | notBare (command : String)
  | notFound (command : String)
deriving Repr, DecidableEq

/-- The fault as a problem. -/
def LookupFault.problem : LookupFault → Problem
  | notBare command => ⟨.unsafeArgument, "command must be a bare name, got " ++ Text.quoted command⟩
  | notFound command => ⟨.toolUnavailable, "'" ++ command ++ "' was not found on PATH"⟩

/-- The path of a command in a directory. -/
def inDirectory (directory command : String) : String :=
  if directory.isEmpty || Text.hasEnd "/" directory then directory ++ command
  else directory ++ "/" ++ command

/-- The path leads to a file that may be executed. -/
def isCommand (t : Tree) (path : String) : Bool :=
  let p := Path.ofString path
  t.isExecutable p && !t.isDirectory p

/-- The paths that a command is looked for at, in order. -/
def searchPlaces (searchPath command : String) : List String :=
  if searchPath.isEmpty then [] else (Text.splitOn ':' searchPath).map fun d => inDirectory d command

/-- The path of a command on a search path. -/
def onPath? (t : Tree) (searchPath command : String) : Option String :=
  (searchPlaces searchPath command).find? (isCommand t)

/-- The path of a command in an environment. -/
def lookup (t : Tree) (e : Environment) (command : String) : Except LookupFault String :=
  if command.toList.contains '/' then .error (.notBare command)
  else
    let searchPath := (e.value? Environment.searchPathName).getD Environment.defaultSearchPath
    match onPath? t searchPath command with
    | some path => .ok path
    | none => .error (.notFound command)

/-- The command of a policy is found for a parent with some environment. -/
def Policy.isAvailable (p : Policy) (t : Tree) (parent : Environment) : Bool :=
  (onPath? t (((p.environment parent).value? Environment.searchPathName).getD "") p.command).isSome

end Assay.Sandbox

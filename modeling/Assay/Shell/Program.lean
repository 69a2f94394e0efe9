import Assay.Files.Resolve
import Assay.Files.System
import Assay.Sandbox.Lookup

/-!
# Programs

A file that may be executed is either one of the basic commands or a text whose first line names the
program that reads it.
-/

namespace Assay.Shell

open Files Sandbox

/-- Why a file cannot be started as a program. -/
inductive StartFault where
  | missing
  | noProgram
deriving Repr, DecidableEq

/-- A basic command with its arguments. -/
structure Started where
  command : String
  arguments : List String
deriving Repr, DecidableEq

/-- The path names one of the basic commands. -/
def basicCommandAt? (t : Tree) (path : String) : Option String :=
  match (t.realPath (Path.ofString path)).parts with
  | ["usr", "bin", name] => if basicCommands.contains name then some name else none
  | _ => none

/-- The program that the first line of a text names, with its argument if there is one. -/
def interpreter? (s : String) : Option (List String) :=
  match s.toList with
  | '#' :: '!' :: rest =>
    let words := (rest.takeWhile (· != '\n')).dropWhile (· == ' ')
    let program := words.takeWhile fun c => c != ' ' && c != '\t'
    let argument := (words.drop program.length).dropWhile fun c => c == ' ' || c == '\t'
    let argument := (argument.reverse.dropWhile fun c => c == ' ' || c == '\t').reverse
    if program.isEmpty then none
    else some (String.ofList program :: (if argument.isEmpty then [] else [String.ofList argument]))
  | _ => none

/-- What starting a file comes to; at most `links` programs read each other. -/
def startOf (t : Tree) : (links : Nat) → (path : String) → List String → Except StartFault Started
  | 0, _, _ => .error .noProgram
  | links + 1, path, arguments =>
    match basicCommandAt? t path with
    | some name => .ok ⟨name, arguments⟩
    | none =>
      if !isCommand t path then .error .missing
      else match t.read? (Path.ofString path) with
        | some (.text s) =>
          match interpreter? s with
          | some (program :: argument) => startOf t links program (argument ++ path :: arguments)
          | _ => .error .noProgram
        | _ => .error .noProgram

/-- The number of programs that may read each other. -/
def maxInterpreters : Nat := 5

/-- What starting a file comes to. -/
def start? (t : Tree) (path : String) (arguments : List String) : Except StartFault Started :=
  startOf t maxInterpreters path arguments

end Assay.Shell

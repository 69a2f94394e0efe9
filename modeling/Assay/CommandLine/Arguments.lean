import Assay.Text.Quoted
import Assay.Text.Split

/-!
# Arguments of a command line

Arguments are options and operands, in any order up to a double dash, behind which all are operands. A
long option has its value behind an equals sign or as the next argument. Short options may share one
argument, the last of them with its value.
-/

namespace Assay.CommandLine

/-- An option that a command knows. -/
structure OptionSpec where
  /-- The long spelling, with its dashes. -/
  long : String
  /-- The letter of the short spelling. -/
  short : Option Char := none
  takesValue : Bool := true
deriving Repr, DecidableEq

/-- Why arguments are refused. -/
inductive UsageFault where
  | unknownOption (name : String)
  | missingValue (name : String)
  | needlessValue (name : String)
  | unknownCommand (name : String)
  | missingCommand
  | missingOperand (name : String)
  | needlessOperands (operands : List String)
  | badValue (name value : String)
deriving Repr, DecidableEq

/-- The text of a refusal. -/
def UsageFault.message : UsageFault → String
  | unknownOption name => "No such option: " ++ name
  | missingValue name => "Option " ++ Text.quoted name ++ " requires an argument."
  | needlessValue name => "Option " ++ Text.quoted name ++ " does not take a value."
  | unknownCommand name => "No such command " ++ Text.quoted name ++ "."
  | missingCommand => "Missing command."
  | missingOperand name => "Missing argument " ++ Text.quoted name ++ "."
  | needlessOperands operands => "Got unexpected extra arguments (" ++ Text.join " " operands ++ ")"
  | badValue name value => "Invalid value for " ++ Text.quoted name ++ ": " ++ Text.quoted value

/-- An option that was given, with its value if it takes one. -/
structure Given where
  spec : OptionSpec
  value : String := ""
deriving Repr, DecidableEq

/-- Arguments that have been told apart. -/
structure Arguments where
  given : List Given := []
  operands : List String := []
deriving Repr, DecidableEq

namespace Arguments

/-- Whether an option was given. -/
def has (long : String) (a : Arguments) : Bool := a.given.any fun g => g.spec.long == long

/-- The values of an option, in order. -/
def values (long : String) (a : Arguments) : List String :=
  (a.given.filter fun g => g.spec.long == long).map (·.value)

/-- The value of an option, of which the last one counts. -/
def value? (long : String) (a : Arguments) : Option String := (a.values long).getLast?

end Arguments

/-- An option with its value and the arguments behind it. -/
def valued (spec : OptionSpec) (attached : Option String) (rest : List String) :
    Except UsageFault (Given × List String) :=
  match spec.takesValue, attached, rest with
  | true, some v, rest => .ok (⟨spec, v⟩, rest)
  | true, none, v :: rest => .ok (⟨spec, v⟩, rest)
  | true, none, [] => .error (.missingValue spec.long)
  | false, some _, _ => .error (.needlessValue spec.long)
  | false, none, rest => .ok (⟨spec, ""⟩, rest)

/-- A long option, whose value may be attached. -/
def longOption (spec : OptionSpec) (argument : String) (rest : List String) :
    Except UsageFault (Given × List String) :=
  match Text.cut '=' argument.toList with
  | some (_, v) => valued spec (some (String.ofList v)) rest
  | none => valued spec none rest

/-- Short options that share an argument. -/
def shortOptions (specs : List OptionSpec) :
    List Char → List String → Except UsageFault (List Given × List String)
  | [], rest => .ok ([], rest)
  | c :: cs, rest =>
    match specs.find? fun s => s.short == some c with
    | none => .error (.unknownOption (String.ofList ['-', c]))
    | some spec =>
      if spec.takesValue then
        (valued spec (if cs.isEmpty then none else some (String.ofList cs)) rest).map
          fun (g, rest) => ([g], rest)
      else (shortOptions specs cs rest).map fun (gs, rest) => (⟨spec, ""⟩ :: gs, rest)

/-- The spelling of an option without an attached value. -/
def spelling (argument : String) : String :=
  String.ofList (argument.toList.takeWhile (· != '='))

/-- The options of one argument and the arguments behind them. -/
def optionsOf (specs : List OptionSpec) (argument : String) (rest : List String) :
    Except UsageFault (List Given × List String) :=
  match specs.find? fun s => s.long == spelling argument with
  | some spec => (longOption spec argument rest).map fun (g, rest) => ([g], rest)
  | none =>
    if Text.hasStart "--" argument then .error (.unknownOption (spelling argument))
    else shortOptions specs (argument.toList.drop 1) rest

/-- The argument is an option and no operand. -/
def isOption (argument : String) : Bool := Text.hasStart "-" argument && argument != "-"

/-- Tells arguments apart. If `early` is set, all arguments from the first operand on are operands. -/
def tellApart (specs : List OptionSpec) (early : Bool) :
    (fuel : Nat) → List String → Except UsageFault Arguments
  | _, [] => .ok {}
  | 0, rest => .ok { operands := rest }
  | fuel + 1, argument :: rest =>
    if argument == "--" then .ok { operands := rest }
    else if isOption argument then
      match optionsOf specs argument rest with
      | .error f => .error f
      | .ok (found, rest) =>
        (tellApart specs early fuel rest).map fun a => { a with given := found ++ a.given }
    else if early then .ok { operands := argument :: rest }
    else (tellApart specs early fuel rest).map fun a => { a with operands := argument :: a.operands }

/-- The arguments of a command that knows some options. -/
def Arguments.read (specs : List OptionSpec) (arguments : List String) : Except UsageFault Arguments :=
  tellApart specs false (arguments.length + 1) arguments

/-- The arguments before a command, and the command with its own arguments as operands. -/
def Arguments.readEarly (specs : List OptionSpec) (arguments : List String) :
    Except UsageFault Arguments :=
  tellApart specs true (arguments.length + 1) arguments

end Assay.CommandLine

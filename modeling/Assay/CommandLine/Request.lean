import Assay.CommandLine.Arguments
import Assay.Schema.Scalar
import Assay.Text.Classes

/-!
# What a command line asks for

Three things can be asked for: a scan of a project, a list of the tools, and help. Asking for help
comes before all complaints but those about the options themselves.
-/

namespace Assay.CommandLine

/-- A scan that is asked for. -/
structure ScanRequest where
  /-- The root of the project. -/
  project : String
  /-- The configuration file. -/
  configuration : Option String := none
  /-- The file that the report goes to. -/
  output : Option String := none
  /-- The only tools that run, if there are any. -/
  tools : List String := []
  timeoutMs : Option Int := none
  workers : Option Int := none
deriving Repr, DecidableEq

/-- What is asked for. -/
inductive Request where
  | scan (r : ScanRequest)
  | tools
  | help
deriving Repr, DecidableEq

/-- The option that asks for help. -/
def helpOption : OptionSpec := { long := "--help", takesValue := false }

/-- The option that leaves out colours. -/
def plainOption : OptionSpec := { long := "--no-color", takesValue := false }

/-- The options of a scan. -/
def scanOptions : List OptionSpec :=
  [{ long := "--config", short := some 'c' }, { long := "--output", short := some 'o' },
    { long := "--tool", short := some 't' }, { long := "--timeout-ms" },
    { long := "--workers", short := some 'j' },
    { long := "--verbose", short := some 'v', takesValue := false }, plainOption, helpOption]

/-- The options of the list of tools. -/
def toolsOptions : List OptionSpec := [plainOption, helpOption]

/-- The whole number in a text, in digits of any script with underscores between them, and not more of
them than can be read. -/
def wholeOf? (s : String) : Option Int :=
  let (negative, digits) := Decimal.splitSign (Text.trim s.toList)
  let counted := (Schema.dropUnderscores digits).filter (·.length ≤ Decimal.maxWholeDigits)
  let number := counted.bind Text.natOfDecimals?
  number.map fun n => if negative then -(n : Int) else n

/-- A whole number above zero as the value of an option. -/
def positive (name : String) : Option String → Except UsageFault (Option Int)
  | none => .ok none
  | some v =>
    match wholeOf? v with
    | some n => if 1 ≤ n then .ok (some n) else .error (.badValue name v)
    | none => .error (.badValue name v)

/-- What the arguments of a scan ask for. -/
def scanRequest (arguments : List String) : Except UsageFault Request := do
  let a ← Arguments.read scanOptions arguments
  if a.has "--help" then return .help
  let timeoutMs ← positive "--timeout-ms" (a.value? "--timeout-ms")
  let workers ← positive "--workers" (a.value? "--workers")
  match a.operands with
  | [] => throw (.missingOperand "PATH")
  | [project] =>
    return .scan
      { project, configuration := a.value? "--config", output := a.value? "--output"
        tools := a.values "--tool", timeoutMs, workers }
  | _ :: more => throw (.needlessOperands more)

/-- What the arguments of the list of tools ask for. -/
def toolsRequest (arguments : List String) : Except UsageFault Request := do
  let a ← Arguments.read toolsOptions arguments
  if a.has "--help" then return .help
  if a.operands.isEmpty then return .tools else throw (.needlessOperands a.operands)

/-- What a command line asks for. -/
def Request.ofArguments (arguments : List String) : Except UsageFault Request := do
  let a ← Arguments.readEarly [helpOption] arguments
  if a.has "--help" then return .help
  match a.operands with
  | [] => throw .missingCommand
  | "scan" :: rest => scanRequest rest
  | "tools" :: rest => toolsRequest rest
  | other :: _ => throw (.unknownCommand other)

end Assay.CommandLine

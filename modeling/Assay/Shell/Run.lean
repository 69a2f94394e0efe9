import Assay.Shell.Expand
import Assay.Shell.Program

/-!
# Running scripts

Commands are run one after another on a shell. A command of the shell itself is tried first, then a
program on the search path.
-/

namespace Assay.Shell

open Sandbox Files

/-- How the parts of a command are run. -/
structure Running where
  /-- Runs a command. -/
  run : Command → Action Unit
  /-- Runs the commands of a text. -/
  runText : String → Action Unit

namespace Action

/-- Runs what signals ask for that have come in. -/
def runDue (r : Running) : Action Unit := do
  let due := (← get).due
  modify fun s => { s with due := [] }
  for signal in due do
    match (← get).traps.lookup signal with
    | some handler =>
      let status := (← get).status
      r.runText handler
      endWith status
    | none => pure ()

/-- Runs an action in which a bad end of a command is no reason to end. -/
def guarded (action : Action Unit) : Action Unit := do
  let strict := (← get).endsOnFailure
  modify fun s => { s with endsOnFailure := false }
  action
  modify fun s => { s with endsOnFailure := strict }

/-- Ends if the last command ended badly and that is a reason to end. -/
def minded : Action Unit := do
  let s ← get
  if s.endsOnFailure && s.status != 0 then throw .ended

/-- Runs the body of a loop once: `false` if the loop is left. -/
def onceAround (action : Action Unit) : Action Bool := do
  let loops := (← get).loops
  modify fun s => { s with loops := loops + 1 }
  let leave : Action Unit := modify fun s => { s with loops }
  try
    action
    leave
    return true
  catch h =>
    leave
    match h with
    | .broken levels => if levels ≤ 1 || loops == 0 then return false else throw (.broken (levels - 1))
    | .continued levels => if levels ≤ 1 || loops == 0 then return true else throw (.continued (levels - 1))
    | h => throw h

/-- Goes around a loop under a condition; a loop without end waits to be killed. -/
def loopFrom (r : Running) (untilGood : Bool) (condition body : Command) : (fuel : Nat) → Action Unit
  | 0 => hang
  | fuel + 1 => do
    let last := (← get).status
    guarded (r.run condition)
    let isGood := (← get).status == 0
    if isGood != untilGood then
      if ← onceAround (r.run body) then loopFrom r untilGood condition body fuel else return
    else endWith last

/-- Goes around a loop over texts. -/
def eachOf (r : Running) (name : String) (body : Command) : List String → Action Unit
  | [] => return
  | v :: rest => do
    modify (State.assign name v)
    if ← onceAround (r.run body) then eachOf r name body rest else return

/-- What a shell in the place of a command prints. -/
def substitute (r : Running) (script : String) : Action Bytes :=
  collecting (apart (r.runText script))

/-- How words at a line are expanded. -/
def expander (r : Running) (line : Nat) : Expander := { line, substitute := substitute r }

/-- Runs an action and lets a return from a function end it. -/
def returning (action : Action Unit) : Action Unit := do
  try action catch
    | .returned => pure ()
    | h => throw h

/-! ## Redirections -/

/-- The path of a file that is redirected to or from. -/
def redirectedPath (path : String) : Action Path := do
  return (← get).tree.realPath (Path.ofString path)

/-- The sink that a path stands for; it is emptied unless something is to be appended. -/
def sinkAt (appending : Bool) (path : String) : Action (Option Sink) := do
  let p ← redirectedPath path
  if p.toString == "/dev/null" then return some .nowhere
  let s ← get
  let parent : Path := ⟨p.anchor, p.parts.dropLast⟩
  if s.tree.isDirectory p || !s.tree.isDirectory parent then return none
  if !appending then set { s with tree := s.tree.write p "" }
  return some (.file p)

/-- Where descriptors lead after some redirections, and the new input if there is one. -/
structure Redirected where
  sinks : List (Nat × Sink)
  input : Option Bytes := none

/-- The redirections with a descriptor that leads somewhere else. -/
def Redirected.lead (d : Nat) (sink : Sink) (r : Redirected) : Redirected :=
  { r with sinks := (d, sink) :: r.sinks.filter (·.1 != d) }

/-- What one redirection comes to; the path that cannot be opened otherwise. -/
def redirectOne (e : Expander) (r : Redirected) (x : Redirection) : Action (Except String Redirected) := do
  match x.target with
  | .copy source => return .ok (r.lead x.descriptor ((r.sinks.lookup source).getD .nowhere))
  | .close => return .ok (r.lead x.descriptor .nowhere)
  | .here w => return .ok { r with input := some (Text.Utf8.encode (← expandWhole e w)) }
  | .write w =>
    let path ← expandWhole e w
    match ← sinkAt false path with
    | some sink => return .ok (r.lead x.descriptor sink)
    | none => return .error ("cannot create " ++ path ++ ": Directory nonexistent")
  | .append w =>
    let path ← expandWhole e w
    match ← sinkAt true path with
    | some sink => return .ok (r.lead x.descriptor sink)
    | none => return .error ("cannot create " ++ path ++ ": Directory nonexistent")
  | .read w =>
    let path ← expandWhole e w
    match (← get).tree.read? (← redirectedPath path) with
    | some content => return .ok { r with input := some (Text.Utf8.encode content.toText) }
    | none => return .error ("cannot open " ++ path ++ ": No such file")

/-- What redirections come to, one after another. -/
def redirectAll (e : Expander) : Redirected → List Redirection → Action (Except String Redirected)
  | r, [] => return .ok r
  | r, x :: rest => do
    match ← redirectOne e r x with
    | .ok r => redirectAll e r rest
    | .error complaint => return .error complaint

/-! ## Programs -/

/-- The microseconds that an argument of a sleep stands for. -/
def sleepTime? (s : String) : Option Time :=
  let cs := s.toList
  let whole := cs.takeWhile Char.isDigit
  let rest := cs.drop whole.length
  let (fraction, rest) := match rest with
    | '.' :: more =>
      let digits := more.takeWhile Char.isDigit
      (digits, more.drop digits.length)
    | rest => ([], rest)
  let micros := Decimal.natOf whole * 1000000 + Decimal.natOf ((fraction ++ List.replicate 6 '0').take 6)
  if whole.isEmpty && fraction.isEmpty then none
  else match rest with
    | [] | ['s'] => some micros
    | ['m'] => some (micros * 60)
    | ['h'] => some (micros * 3600)
    | _ => none

/-- Sleeps for the times that are asked for. A signal that something is to be run on ends the sleep. -/
def sleep (arguments : List String) : Action Unit := do
  if arguments.contains "infinity" then hang
  match arguments.mapM sleepTime? with
  | some (t :: ts) =>
    if ← pass (ts.foldl (· + ·) t) then endWith 0
    else endWith (statusOfSignal Notice.terminate.signal)
  | _ => finish { status := 1, errors := "sleep: invalid time interval\n" }

/-- The number that stands for a shell among all processes. -/
def ownNumber (s : State) : String := (s.value? "$").getD ""

/-- Sends a signal; only the shell itself can be reached. -/
def kill (arguments : List String) : Action Unit := do
  let (signal, targets) : Option Nat × List String := match arguments with
    | "-s" :: name :: rest => (signalNumber? name, rest)
    | a :: rest =>
      match a.toList with
      | '-' :: name => (signalNumber? (String.ofList name), rest)
      | _ => (some Notice.terminate.signal, arguments)
    | [] => (none, [])
  match signal, targets with
  | some signal, target :: _ =>
    if target != ownNumber (← get) && target != "0" then
      finish { status := 1, errors := "kill: No such process\n" }
    else if signal == 0 then endWith 0
    else do
      discard <| hear signal
      endWith 0
  | _, _ => finish { status := 2, errors := "kill: Usage: kill [-s sigspec] pid\n" }

/-- The arguments of a shell after its options, and the options in force. -/
def shellOptions (s : State) : List String → State × Option String × List String
  | "-c" :: text :: rest => ({ s with name := rest.head?.getD s.name }, some text, rest.drop 1)
  | "--" :: rest => (s, none, rest)
  | a :: rest =>
    match a.toList with
    | '-' :: c :: cs =>
      let s := { s with
        endsOnFailure := s.endsOnFailure || (c :: cs).contains 'e'
        needsValues := s.needsValues || (c :: cs).contains 'u' }
      if (c :: cs).contains 'c' then
        match rest with
        | text :: rest => ({ s with name := rest.head?.getD s.name }, some text, rest.drop 1)
        | [] => (s, none, [])
      else shellOptions s rest
    | _ => (s, none, a :: rest)
  | [] => (s, none, [])

/-- Runs what is to be run at the end of a shell. -/
def atEnd (r : Running) : Action Unit := do
  match (← get).traps.lookup 0 with
  | some handler =>
    let status := (← get).status
    modify fun s => { s with traps := s.traps.filter (·.1 != 0) }
    endWith status
    r.runText handler
    endWith status
  | none => return

/-- Runs a text as a whole script. -/
def runScript (r : Running) (text : String) : Action Unit := do
  try returning (r.runText text) catch
    | .ended => pure ()
    | .broken _ => pure ()
    | .continued _ => pure ()
    | h => throw h
  atEnd r

/-- Becomes a new shell with some arguments. -/
def becomeShell (r : Running) (command : String) (arguments : List String) : Action Unit := do
  let s ← get
  let fresh : State := { s with
    name := command, functions := [], endsOnFailure := false, needsValues := false, status := 0
    exported := s.environment.map (·.1), bindings := s.environment
    traps := s.traps.filter fun (_, handler) => handler.isEmpty }
  let here := (Path.rooted s.tree.workingDirectory).toString
  let fresh : State := { fresh.assign "PWD" here with exported := "PWD" :: fresh.exported }
  let (fresh, text, operands) := shellOptions fresh arguments
  match text, operands with
  | some text, operands =>
    set { fresh with arguments := operands }
    runScript r text
  | none, [] =>
    set { fresh with arguments := [], input := [] }
    runScript r (textOf s.input)
  | none, path :: operands =>
    match s.tree.read? (Path.ofString path) with
    | some content =>
      set { fresh with name := path, arguments := operands }
      runScript r content.toText
    | none =>
      emit 2 (Shell.line (command ++ ": 0: cannot open " ++ path ++ ": No such file"))
      endWith 2

/-- Prints a line without end; what takes too many steps waits to be killed. -/
def repeatLine (bytes : Bytes) : (fuel : Nat) → Action Unit
  | 0 => hang
  | fuel + 1 => do
    print bytes
    if ← pass ownTime then repeatLine bytes fuel else endWith (statusOfSignal Notice.terminate.signal)

/-- The steps in which a line is printed without end. -/
def maxRepeats : Nat := 100000

/-- A variable with its value, as it is shown. -/
def shownVariable (entry : String × String) : Bytes := Shell.line (entry.1 ++ "=" ++ entry.2)

/-- The commands that read the input if they are given no file. -/
def isReader (name : String) (arguments : List String) : Bool :=
  ["cat", "grep", "head", "sort", "tail", "tr", "wc"].contains name && arguments.all (Text.hasStart "-")

/-- Finds a program: its path, if there is one. -/
def programPath? (command : String) : Action (Option String) := do
  let s ← get
  if command.toList.contains '/' then return some command
  return onPath? s.tree ((s.value? Environment.searchPathName).getD Environment.defaultSearchPath) command

/-- Runs a basic command; `again` runs another program, for the commands that do so. -/
def runBasic (r : Running) (again : List String → Action Unit) (x : Started) : Action Unit := do
  match x.command with
  | "sh" | "bash" => becomeShell r x.command x.arguments
  | "sleep" => sleep x.arguments
  | "kill" => kill x.arguments
  | "yes" => repeatLine (Shell.line (if x.arguments.isEmpty then "y" else spaced x.arguments)) maxRepeats
  | "env" =>
    let settings := x.arguments.takeWhile fun a => a.toList.contains '='
    for setting in settings do
      let name := setting.toList.takeWhile (· != '=')
      modify fun s =>
        let name' := String.ofList name
        { s.assign name' (String.ofList (setting.toList.drop (name.length + 1))) with
          exported := name' :: s.exported }
    match x.arguments.drop settings.length with
    | [] =>
      print (((← get).environment.map shownVariable).flatten)
      endWith 0
    | words => again words
  | name =>
    let s ← get
    match utility? s.tree name x.arguments s.input with
    | some done =>
      if isReader name x.arguments then set { s with input := [] }
      finish done
    | none => endWith 0

/-- Runs a program in the place of the shell; programs start each other to the given depth. Complaints
begin with the name of the command that asked for it. -/
def becomeProgram (r : Running) (line : Nat) (asker : String) : (depth : Nat) → List String → Action Unit
  | 0, _ => endWith 126
  | _ + 1, [] => endWith 0
  | depth + 1, command :: arguments => do
    match ← programPath? command with
    | none =>
      complain line (asker ++ command ++ ": not found")
      endWith 127
    | some path =>
      match start? (← get).tree path arguments with
      | .error .missing =>
        complain line (asker ++ command ++ ": not found")
        endWith 127
      | .error .noProgram => becomeShell r command (path :: arguments)
      | .ok x =>
        discard <| pass startTime
        runBasic r (becomeProgram r line "" depth) x

/-- Programs start each other to this depth. -/
def maxPrograms : Nat := 20

/-- Runs a program besides the shell. -/
def runProgram (r : Running) (line : Nat) (words : List String) : Action Unit :=
  apart (becomeProgram r line "" maxPrograms words)

/-! ## Commands of the shell itself -/

/-- The exit code that a number stands for. -/
def exitStatus (n : Int) : Nat := (n % 256).toNat

/-- The exit code that arguments ask for; the last one if they do not. -/
def askedStatus (line : Nat) (command : String) (arguments : List String) : Action Nat := do
  match arguments with
  | [] => return (← get).status
  | a :: _ =>
    match (if Text.hasStart "-" a then none else wholeNumber? a) with
    | some n => return exitStatus n
    | none => do
      complain line (command ++ ": Illegal number: " ++ a)
      leave 2

/-- Sets what is run on signals. -/
def setTrap (arguments : List String) : Action Unit := do
  let change := fun (handler : Option String) (signals : List String) => do
    for name in signals do
      match signalNumber? name with
      | some n => modify fun s =>
          let others := s.traps.filter (·.1 != n)
          { s with traps := match handler with
              | some text => (n, text) :: others
              | none => others }
      | none => endWith 1
  endWith 0
  match arguments with
  | [] => return
  | "--" :: "-" :: signals | "-" :: signals => change none signals
  | "--" :: handler :: signals => change (some handler) signals
  | [signal] => change none [signal]
  | handler :: signals => change (some handler) signals

/-- Sets options and arguments of the shell. -/
def setOptions : List String → Action Unit
  | [] => endWith 0
  | "--" :: rest => do
    modify fun s => { s with arguments := rest }
    endWith 0
  | "-o" :: _ :: rest => setOptions rest
  | a :: rest => do
    let change := fun (on : Bool) (letters : List Char) => modify fun (s : State) =>
      { s with
        endsOnFailure := if letters.contains 'e' then on else s.endsOnFailure
        needsValues := if letters.contains 'u' then on else s.needsValues }
    match a.toList with
    | '-' :: letters =>
      change true letters
      setOptions rest
    | '+' :: letters =>
      change false letters
      setOptions rest
    | _ => do
      modify fun s => { s with arguments := a :: rest }
      endWith 0

/-- Assigns variables that are given as arguments, and hands the names on. -/
def assignEach (also : String → State → State) (arguments : List String) : Action Unit := do
  for a in arguments.filter fun a => !Text.hasStart "-" a do
    let name := String.ofList (a.toList.takeWhile (· != '='))
    if a.toList.contains '=' then
      modify (State.assign name (String.ofList (a.toList.drop (name.length + 1))))
    modify (also name)
  endWith 0

/-- Makes variables that end with the function at hand. -/
def setLocals (arguments : List String) : Action Unit := do
  for a in arguments do
    let name := String.ofList (a.toList.takeWhile (· != '='))
    modify fun s => { s with locals := (name, s.bindings.value? name) :: s.locals }
  assignEach (fun _ s => s) arguments

/-- Reads a line of the input into variables. -/
def readLine (arguments : List String) : Action Unit := do
  let names := arguments.filter fun a => !Text.hasStart "-" a
  let s ← get
  let found := s.input.takeWhile (· != 10)
  let isComplete := found.length < s.input.length
  set { s with input := s.input.drop (found.length + 1) }
  let isBlank := fun (c : Char) => c == ' ' || c == '\t'
  let rec fill : List String → List Char → Action Unit
    | [], _ => pure ()
    | [name], cs =>
      let kept := (cs.reverse.dropWhile isBlank).reverse
      modify (State.assign name (String.ofList kept))
    | name :: rest, cs => do
      let first := cs.takeWhile fun c => !isBlank c
      modify (State.assign name (String.ofList first))
      fill rest ((cs.drop first.length).dropWhile isBlank)
  fill names ((textOf found).toList.dropWhile isBlank)
  endWith (if isComplete then 0 else 1)

/-- Goes to another directory. -/
def changeDirectory (line : Nat) (arguments : List String) : Action Unit := do
  let s ← get
  let wanted := (arguments.filter (· != "--")).head?.getD ((s.value? "HOME").getD "")
  let p := Path.ofString wanted
  if wanted.isEmpty then endWith 0
  else if s.tree.isDirectory p then
    let place := (s.tree.realPath p).parts
    set { (s.assign "PWD" (Path.rooted place).toString) with
          tree := { s.tree with workingDirectory := place }, status := 0 }
  else
    complain line ("cd: can't cd to " ++ wanted)
    endWith 2

/-- How many loops are meant. -/
def levelsOf (arguments : List String) : Nat :=
  match arguments.head?.bind wholeNumber? with
  | some n => n.toNat
  | none => 1

/-- What the shell itself does with a command; `none` if it leaves it to a program. -/
def own? (r : Running) (line : Nat) (command : String) (arguments : List String) : Option (Action Unit) :=
  match command with
  | ":" | "true" => some (endWith 0)
  | "false" => some (endWith 1)
  | "echo" => some do
    print (echoed arguments)
    endWith 0
  | "printf" => some do
    match formatArguments arguments with
    | [] => complain line "printf: usage: printf format [arg ...]"; endWith 2
    | format :: rest =>
      let (output, misfits) := formatted format rest
      for s in misfits do complain line ("printf: " ++ misfitText s)
      finish { output, status := if misfits.isEmpty then 0 else 1 }
  | "test" => some do finish (tested (← get).tree arguments)
  | "[" => some do
    if arguments.getLast? == some "]" then finish (tested (← get).tree arguments.dropLast)
    else
      complain line "[: missing ]"
      endWith 2
  | "cd" => some (changeDirectory line arguments)
  | "pwd" => some do finish { output := Shell.line (Path.rooted (← get).tree.workingDirectory).toString }
  | "exit" => some do leave (← askedStatus line command arguments)
  | "return" => some do
    endWith (← askedStatus line command arguments)
    throw .returned
  | "break" => some do if (← get).loops == 0 then endWith 0 else throw (.broken (levelsOf arguments))
  | "continue" => some do if (← get).loops == 0 then endWith 0 else throw (.continued (levelsOf arguments))
  | "set" => some (setOptions arguments)
  | "shift" => some do
    let s ← get
    let n := levelsOf arguments
    if s.arguments.length < n then
      complain line "shift: can't shift that many"
      leave 2
    else set { s with arguments := s.arguments.drop n, status := 0 }
  | "export" => some (assignEach (fun name s => { s with exported := name :: s.exported }) arguments)
  | "readonly" => some (assignEach (fun _ s => s) arguments)
  | "local" => some (setLocals arguments)
  | "unset" => some do
    modify fun s => { s with
      bindings := s.bindings.filter fun (name, _) => !arguments.contains name
      functions := s.functions.filter fun (name, _) => !arguments.contains name }
    endWith 0
  | "read" => some (readLine arguments)
  | "trap" => some (setTrap arguments)
  | "kill" => some (kill arguments)
  | "eval" => some (r.runText (spaced arguments))
  | "." => some do
    let path := arguments.head?.getD ""
    match (← get).tree.read? (Path.ofString path) with
    | some content => returning (r.runText content.toText)
    | none =>
      complain line (".: cannot open " ++ path ++ ": No such file")
      leave 2
  | "exec" => some do
    if arguments.isEmpty then endWith 0
    else
      modify fun s => { s with traps := s.traps.filter fun (_, handler) => handler.isEmpty }
      becomeProgram r line "exec: " maxPrograms arguments
      throw .ended
  | "wait" => some do
    let s ← get
    if ← pass (s.busyUntil - s.watch.now) then endWith 0 else endWith (statusOfSignal Notice.terminate.signal)
  | "umask" | "ulimit" | "hash" | "alias" | "unalias" | "times" => some (endWith 0)
  | _ => none

/-- The commands that the shell knows itself. -/
def isOwn (command : String) : Bool :=
  (own? ⟨fun _ => pure (), fun _ => pure ()⟩ 0 command []).isSome

/-- Says where a command is found. -/
def whereIs (command : String) : Action Unit := do
  if isOwn command || ((← get).functions.lookup command).isSome then
    finish { output := Shell.line command }
  else match ← programPath? command with
    | some path => finish { output := Shell.line path }
    | none => endWith 127

/-- Calls a function with arguments of its own. -/
def call (r : Running) (body : Command) (arguments : List String) : Action Unit := do
  let outer ← get
  modify fun s => { s with arguments, locals := [] }
  let restore : Action Unit := modify fun s =>
    let s := s.locals.foldl (fun s (name, value) => s.restore name value) s
    { s with arguments := outer.arguments, locals := outer.locals }
  try returning (r.run body) catch h => do
    restore
    throw h
  restore

/-- Runs a command by its name. -/
def runWords (r : Running) (line : Nat) (command : String) (arguments : List String) : Action Unit := do
  match (← get).functions.lookup command with
  | some body => call r body arguments
  | none =>
    discard <| pass ownTime
    match command, arguments with
    | "command", ["-v", name] => whereIs name
    | "command", name :: rest => (own? r line name rest).getD (runProgram r line (name :: rest))
    | _, _ => (own? r line command arguments).getD (runProgram r line (command :: arguments))

/-- The commands of the shell behind which assignments stay in force. -/
def isSpecial (command : String) : Bool :=
  [":", ".", "break", "continue", "eval", "exec", "exit", "export", "readonly", "return", "set", "shift",
    "trap", "unset"].contains command

/-- Runs a simple command. Assignments in front of a command hold for it alone. -/
def runSimple (r : Running) (line : Nat) (assignments : List (String × Word)) (words : List Word) :
    Action Unit := do
  let e := expander r line
  let found ← expandWords e words
  match found with
  | [] =>
    endWith 0
    for (name, w) in assignments do
      let v ← expandWhole e w
      modify (State.assign name v)
  | command :: arguments =>
    let before := (← get).bindings
    let exported := (← get).exported
    for (name, w) in assignments do
      let v ← expandWhole e w
      modify fun s => { s.assign name v with exported := name :: s.exported }
    runWords r line command arguments
    if !assignments.isEmpty && !isSpecial command then modify fun s => { s with bindings := before, exported }
  runDue r

/-- Runs the stages of a pipeline, each on the output of the one before. -/
def runStages (r : Running) : List Command → Action Unit
  | [] => return
  | [last] => apart (r.run last)
  | stage :: rest => do
    let output ← collecting (apart (r.run stage))
    let input := (← get).input
    modify fun s => { s with input := output }
    runStages r rest
    modify fun s => { s with input }

/-- Runs the arm whose pattern matches. -/
def chooseArm (r : Running) (subject : String) : List (List Word × Command) → Action Unit
  | [] => endWith 0
  | (patterns, body) :: rest => do
    let matching ← patterns.anyM fun w => do
      let ss ← wordStretches (expander r 0) w
      return Matcher.matchesAll (matchersOf ss) subject.toList
    if matching then
      endWith 0
      r.run body
    else chooseArm r subject rest

/-- Runs a command with redirections. Those of a bare `exec` stay in force. -/
def runRedirected (r : Running) (body : Command) (redirections : List Redirection) : Action Unit := do
  let line := match body with
    | .simple line _ _ => line
    | _ => 0
  match ← redirectAll (expander r line) { sinks := (← get).sinks } redirections with
  | .error complaint =>
    complain line complaint
    endWith 2
  | .ok x =>
    match body with
    | .simple _ _ [[.text false "exec"]] =>
      modify fun s => { s with sinks := x.sinks, input := x.input.getD s.input, status := 0 }
    | .simple _ [] [] => endWith 0
    | body => redirecting x.sinks x.input (r.run body)

/-- Runs a command besides the shell, which goes on at once. -/
def runBeside (r : Running) (body : Command) : Action Unit := do
  let before := (← get).watch
  try apart (r.run body) catch _ => pure ()
  modify fun s => { s with
    watch := { s.watch with now := before.now, stopped := before.stopped }
    busyUntil := max s.busyUntil s.watch.now
    status := 0 }

/-- Runs a command by its form. -/
def runForm (r : Running) (fuel : Nat) : Command → Action Unit
  | .skip => endWith 0
  | .simple line assignments words => do
    runSimple r line assignments words
    minded
  | .redirected body redirections => do
    runRedirected r body redirections
    minded
  | .pipeline stages => do
    runStages r stages
    minded
  | .negated body => do
    guarded (r.run body)
    endWith (if (← get).status == 0 then 1 else 0)
  | .both first second => do
    guarded (r.run first)
    if (← get).status == 0 then r.run second
  | .either first second => do
    guarded (r.run first)
    if (← get).status != 0 then r.run second
  | .sequence first second => do
    r.run first
    r.run second
  | .background body => runBeside r body
  | .subshell body => do
    apart (r.run body)
    minded
  | .branch condition yes no => do
    guarded (r.run condition)
    if (← get).status == 0 then r.run yes else r.run no
  | .loop untilGood condition body => do
    endWith 0
    loopFrom r untilGood condition body fuel
  | .each name words body => do
    let values ← match words with
      | some ws => expandWords (expander r 0) ws
      | none => pure (← get).arguments
    endWith 0
    eachOf r name body values
  | .choose subject arms => do chooseArm r (← expandWhole (expander r 0) subject) arms
  | .define name body => do
    modify fun s => { s with functions := (name, body) :: s.functions.filter (·.1 != name) }
    endWith 0

/-- Runs the commands of a script, up to its first mistake. -/
def runCommands (run : Command → Action Unit) (text : String) : Action Unit := do
  let script := Script.ofText text
  for c in script.commands do run c
  if !script.isWhole then
    complain 1 "Syntax error"
    leave 2

/-- Runs a command; what takes more steps than there is fuel for waits to be killed. -/
def run : (fuel : Nat) → Command → Action Unit
  | 0, _ => hang
  | fuel + 1, c => runForm ⟨run fuel, runCommands (run fuel)⟩ fuel c

end Action

/-- The steps that a script may take. -/
def maxSteps : Nat := 2000000

/-- How scripts are run. -/
def running : Running := ⟨Action.run maxSteps, Action.runCommands (Action.run maxSteps)⟩

end Assay.Shell

import Assay.Files.Tree
import Assay.Shell.Format

/-!
# Utilities

The commands that only look at their arguments, at files, and at their input: what they print and how
they end.
-/

namespace Assay.Shell

open Sandbox Files

/-- What a utility did: how it ended, and what it printed. -/
structure Done where
  status : Nat := 0
  output : Bytes := []
  errors : String := ""
deriving Repr

/-- The text of bytes, and back. -/
def textOf (bytes : Bytes) : String := Text.Utf8.decode bytes

/-- The lines of bytes, each with its end. -/
def byteLines : (fuel : Nat) → Bytes → List Bytes
  | 0, _ => []
  | _ + 1, [] => []
  | fuel + 1, bytes =>
    let line := bytes.takeWhile (· != 10)
    (line ++ (bytes.drop line.length).take 1) :: byteLines fuel (bytes.drop (line.length + 1))

/-- The lines of bytes, each with its end. -/
def linesOf (bytes : Bytes) : List Bytes := byteLines (bytes.length + 1) bytes

/-- The number that a text stands for. -/
def wholeNumber? (s : String) : Option Int :=
  match s.toList with
  | '-' :: c :: rest => if (c :: rest).all Char.isDigit then some (-(Decimal.natOf (c :: rest) : Int)) else none
  | '+' :: c :: rest => if (c :: rest).all Char.isDigit then some (Decimal.natOf (c :: rest)) else none
  | c :: rest => if (c :: rest).all Char.isDigit then some (Decimal.natOf (c :: rest)) else none
  | [] => none

/-! ## Tests -/

/-- What a test finds: it holds, it does not hold, or it cannot be made. -/
abbrev Verdict := Option Bool

/-- A test of one argument. -/
def unaryTest (t : Tree) (op argument : String) : Verdict :=
  let p := Path.ofString argument
  let isThere := argument != "" && (t.exists? p).toOption.getD false
  match op with
  | "-n" => some (argument != "")
  | "-z" => some (argument == "")
  | "-e" => some isThere
  | "-f" => some (isThere && t.isFile p)
  | "-d" => some (isThere && t.isDirectory p)
  | "-x" => some (isThere && t.isExecutable p)
  | "-r" | "-w" => some isThere
  | "-s" => some (match t.read? p with
    | some content => content.size != 0
    | none => isThere)
  | "-L" | "-h" => some (match t.find false p with
    | .ok place => ((t.top.at? place).map Node.isLink).getD false
    | .error _ => false)
  | "-t" => some false
  | _ => none

/-- A comparison of numbers. -/
def compareNumbers (holds : Int → Int → Bool) (a b : String) : Verdict := do
  return holds (← wholeNumber? a) (← wholeNumber? b)

/-- A test of two arguments. -/
def binaryTest (op a b : String) : Verdict :=
  match op with
  | "=" => some (a == b)
  | "!=" => some (a != b)
  | "<" => some (decide (a < b))
  | ">" => some (decide (b < a))
  | "-eq" => compareNumbers (· == ·) a b
  | "-ne" => compareNumbers (· != ·) a b
  | "-lt" => compareNumbers (fun x y => decide (x < y)) a b
  | "-le" => compareNumbers (fun x y => decide (x ≤ y)) a b
  | "-gt" => compareNumbers (fun x y => decide (y < x)) a b
  | "-ge" => compareNumbers (fun x y => decide (y ≤ x)) a b
  | _ => none

/-- The words that compare two arguments. -/
def isBinaryWord (op : String) : Bool :=
  ["=", "!=", "<", ">", "-eq", "-ne", "-lt", "-le", "-gt", "-ge"].contains op

/-- A test of up to three arguments, with negations in front. -/
def simpleTest (t : Tree) : List String → Verdict
  | [] => some false
  | [a] => some (a != "")
  | ["!", a] => some (a == "")
  | [op, a] => unaryTest t op a
  | [a, op, b] =>
    if isBinaryWord op then binaryTest op a b
    else if a == "!" then (simpleTest t [op, b]).map not
    else if a == "(" && b == ")" then some (op != "")
    else none
  | "!" :: rest => (simpleTest t rest).map not
  | _ => none

/-- The arguments between words that join tests. -/
def splitAt (joint : String) : List String → List (List String)
  | [] => [[]]
  | a :: rest =>
    match splitAt joint rest with
    | [] => [[a]]
    | first :: more => if a == joint then [] :: first :: more else (a :: first) :: more

/-- A test whose parts are joined. -/
def joinedTest (t : Tree) (arguments : List String) : Verdict :=
  if arguments.length ≤ 3 then simpleTest t arguments
  else do
    let sides ← (splitAt "-o" arguments).mapM fun side => do
      return (← (splitAt "-a" side).mapM (simpleTest t)).all id
    return sides.any id

/-- The end of a test. -/
def tested (t : Tree) (arguments : List String) : Done :=
  match joinedTest t arguments with
  | some true => {}
  | some false => { status := 1 }
  | none => { status := 2, errors := "unexpected operator" }

/-! ## Parts of the input -/

/-- How much of the input a command shows. -/
inductive Amount where
  | lines (n : Nat)
  | bytes (n : Nat)

/-- The amount that arguments ask for, and the files that they name. -/
def amountFrom : Amount → List String → Amount × List String
  | _, "-n" :: n :: rest => amountFrom (.lines (Decimal.natOf n.toList)) rest
  | _, "-c" :: n :: rest => amountFrom (.bytes (Decimal.natOf n.toList)) rest
  | amount, a :: rest =>
    match a.toList with
    | '-' :: 'n' :: n => if n.isEmpty then (amount, rest) else amountFrom (.lines (Decimal.natOf n)) rest
    | '-' :: 'c' :: n => if n.isEmpty then (amount, rest) else amountFrom (.bytes (Decimal.natOf n)) rest
    | '-' :: d :: n =>
      if (d :: n).all Char.isDigit then amountFrom (.lines (Decimal.natOf (d :: n))) rest
      else (amount, a :: rest)
    | _ => (amount, a :: rest)
  | amount, [] => (amount, [])

/-- The start of the input. -/
def Amount.firstOf (input : Bytes) : Amount → Bytes
  | lines n => ((linesOf input).take n).flatten
  | bytes n => input.take n

/-- The end of the input. -/
def Amount.lastOf (input : Bytes) : Amount → Bytes
  | lines n =>
    let all := linesOf input
    (all.drop (all.length - n)).flatten
  | bytes n => input.drop (input.length - n)

/-- The number of words. -/
def countWords (input : Bytes) : Nat :=
  (((textOf input).toList.splitBy fun a b => a.isWhitespace == b.isWhitespace).filter
    fun run => !(run.any Char.isWhitespace)).length

/-- The counts that arguments ask for. -/
def counts (arguments : List String) (input : Bytes) : String :=
  let feeds := Decimal.natText (input.count 10)
  let size := Decimal.natText input.length
  match arguments with
  | ["-l"] => feeds
  | ["-c"] => size
  | ["-w"] => Decimal.natText (countWords input)
  | ["-m"] => Decimal.natText (textOf input).length
  | _ =>
    Text.join " " ([feeds, Decimal.natText (countWords input), size].map fun s => "".pushn ' ' (7 - s.length) ++ s)

/-- A line with its end. -/
def line (s : String) : Bytes := Text.Utf8.encode s ++ lineFeed

/-- The numbers from one to another in steps, a line for each. -/
def numbersBetween (first step last : Int) : Bytes :=
  if step == 0 then []
  else
    let count := ((last - first) / step + 1).toNat
    ((List.range count).map fun (n : Nat) => line (Decimal.intText (first + (n : Int) * step))).flatten

/-- The numbers that arguments ask for. -/
def numbers (arguments : List String) : Bytes :=
  match arguments.map wholeNumber? with
  | [some last] => numbersBetween 1 1 last
  | [some first, some last] => numbersBetween first 1 last
  | [some first, some step, some last] => numbersBetween first step last
  | _ => []

/-- Lines in order. -/
def sorted (arguments : List String) (input : Bytes) : Bytes :=
  let found := (linesOf input).map fun l => textOf (l.filter (· != 10))
  let found := found.mergeSort fun a b => decide (a ≤ b)
  let found := if arguments.contains "-r" then found.reverse else found
  let found := if arguments.contains "-u" then found.eraseDups else found
  (found.map line).flatten

/-- The last part of a path, without an ending. -/
def lastPart (path ending : String) : String :=
  let name := (Path.ofString path).name
  let name := if name.isEmpty then "/" else name
  if ending != "" && name != ending && Text.hasEnd ending name then
    String.ofList (name.toList.take (name.length - ending.length))
  else name

/-- The path without its last part. -/
def leadingPart (path : String) : String :=
  let p := Path.ofString path
  let above : Path := ⟨p.anchor, p.parts.dropLast⟩
  above.toString

/-- The names in a directory, in order. -/
def namesIn (t : Tree) (p : Path) : List String :=
  match t.stat p with
  | .ok (.directory entries) => (entries.map (·.1)).mergeSort fun a b => decide (a ≤ b)
  | _ => []

/-- The names that are listed for some paths. -/
def listed (t : Tree) (arguments : List String) : Done :=
  let all := arguments.contains "-a"
  let paths := arguments.filter fun a => !Text.hasStart "-" a
  let paths := if paths.isEmpty then ["."] else paths
  paths.foldl (fun done s =>
    let p := Path.ofString s
    if t.isDirectory p then
      let names := (namesIn t p).filter fun name => all || !Text.hasStart "." name
      { done with output := done.output ++ (names.map line).flatten }
    else if (t.exists? p).toOption.getD false then { done with output := done.output ++ line s }
    else
      { done with
        status := 2
        errors := done.errors ++ "ls: cannot access '" ++ s ++ "': No such file or directory\n" }) {}

/-- The bytes of files joined, a dash standing for the input; files that are not there are named. -/
def joinedFiles (t : Tree) (command : String) (paths : List String) (input : Bytes) : Done :=
  if paths.isEmpty then { output := input }
  else paths.foldl (fun done s =>
    if s == "-" then { done with output := done.output ++ input }
    else match t.read? (Path.ofString s) with
      | some content => { done with output := done.output ++ Text.Utf8.encode content.toText }
      | none =>
        let reason :=
          if t.isDirectory (Path.ofString s) then ": Is a directory\n" else ": No such file or directory\n"
        { done with status := 1, errors := done.errors ++ command ++ ": " ++ s ++ reason }) {}

/-! ## Changing and choosing -/

/-- The bytes that a set of characters names, with ranges between two of them. -/
def bytesInSet : (fuel : Nat) → Bytes → Bytes
  | 0, set => set
  | fuel + 1, a :: 45 :: b :: rest =>
    ((List.range (b.toNat + 1 - a.toNat)).map fun n => UInt8.ofNat (a.toNat + n)) ++ bytesInSet fuel rest
  | fuel + 1, a :: rest => a :: bytesInSet fuel rest
  | _ + 1, [] => []

/-- The bytes that a set names, with its escapes resolved. -/
def setOf (s : String) : Bytes :=
  let bytes := (resolveEscapes false (s.length + 1) s.toList).bytes
  bytesInSet (bytes.length + 1) bytes

/-- The input with the bytes of one set changed into those of another; the last one of the other stands
in where it is shorter. -/
def changed (old new : Bytes) (input : Bytes) : Bytes :=
  input.map fun b =>
    match old.findIdx? (· == b) with
    | some n => (new[n]?.or new.getLast?).getD b
    | none => b

/-- The input as arguments ask for it to be changed. -/
def changedBy (arguments : List String) (input : Bytes) : Bytes :=
  match arguments with
  | ["-d", set] => input.filter fun b => !(setOf set).contains b
  | [old, new] => changed (setOf old) (setOf new) input
  | _ => input

/-- A line holds a text, whose first and last sign may tie it to the ends of the line. -/
def holds (pattern line : String) : Bool :=
  let cs := pattern.toList
  let (atStart, cs) := match cs with
    | '^' :: rest => (true, rest)
    | cs => (false, cs)
  let (atEnd, cs) := if cs.getLast? == some '$' then (true, cs.dropLast) else (false, cs)
  match atStart, atEnd with
  | true, true => line.toList == cs
  | true, false => Text.startsWith cs line.toList
  | false, true => Text.endsWith cs line.toList
  | false, false => Text.occursIn cs line.toList

/-- The lines that hold a text. -/
def chosen (options : List String) (pattern : String) (input : Bytes) : Done :=
  let has := fun (c : Char) => options.any fun o => o.toList.contains c
  let found := (linesOf input).filter fun l => holds pattern (textOf (l.filter (· != 10))) != has 'v'
  { status := if found.isEmpty then 1 else 0
    output :=
      if has 'q' then []
      else if has 'c' then line (Decimal.natText found.length)
      else (found.map fun l => if l.getLast? == some 10 then l else l ++ lineFeed).flatten }

/-- The path of the file that never ends and holds nothing but zeros. -/
def zerosPath : String := "/dev/zero"

/-- What a utility does; `none` if there is no such utility, or if it does more than to print. -/
def utility? (t : Tree) (name : String) (arguments : List String) (input : Bytes) : Option Done :=
  match name with
  | "true" => some {}
  | "false" => some { status := 1 }
  | "echo" => some { output := plainlyEchoed arguments }
  | "printf" =>
    match formatArguments arguments with
    | format :: rest =>
      let (output, misfits) := formatted format rest
      let complaints := misfits.map fun s => "printf: " ++ misfitText s ++ "\n"
      some { output, status := if misfits.isEmpty then 0 else 1, errors := String.join complaints }
    | [] => some { status := 2, errors := "printf: missing operand\n" }
  | "cat" => some (joinedFiles t name (arguments.filter (· != "-u")) input)
  | "head" =>
    let (amount, paths) := amountFrom (.lines 10) arguments
    match amount, paths with
    | .bytes n, [path] =>
      if path == zerosPath then some { output := List.replicate n 0 }
      else
        let done := joinedFiles t name paths input
        some { done with output := done.output.take n }
    | _, _ =>
      let done := joinedFiles t name paths input
      some { done with output := amount.firstOf done.output }
  | "tr" => some { output := changedBy arguments input }
  | "grep" =>
    let (options, rest) := arguments.partition (Text.hasStart "-")
    match rest with
    | pattern :: paths => some (chosen options pattern (joinedFiles t name paths input).output)
    | [] => some { status := 2 }
  | "tail" =>
    let (amount, paths) := amountFrom (.lines 10) arguments
    let done := joinedFiles t name paths input
    some { done with output := amount.lastOf done.output }
  | "wc" =>
    let (options, paths) := arguments.partition (Text.hasStart "-")
    let done := joinedFiles t name paths input
    let named := match paths with
      | [path] => " " ++ path
      | _ => ""
    some { done with output := line (counts options done.output ++ named) }
  | "sort" =>
    let (options, paths) := arguments.partition (Text.hasStart "-")
    let done := joinedFiles t name paths input
    some { done with output := sorted options done.output }
  | "seq" => some { output := numbers arguments }
  | "basename" =>
    match arguments with
    | path :: rest => some { output := line (lastPart path (rest.head?.getD "")) }
    | [] => some { status := 1 }
  | "dirname" => some { output := (arguments.map fun s => line (leadingPart s)).flatten }
  | "ls" => some (listed t arguments)
  | "pwd" => some { output := line (Path.rooted t.workingDirectory).toString }
  | "test" => some (tested t arguments)
  | _ => none

end Assay.Shell

import Assay.Sandbox.Capture
import Assay.Decimal.Text
import Assay.Text.Split
import Assay.Json.Reader

/-!
# Escapes and formats

What the commands that print their arguments make of backslashes and of formats.
-/

namespace Assay.Shell

open Sandbox

/-- The bytes of a character. -/
def bytesOf (c : Char) : Bytes := Text.Utf8.encode (String.singleton c)

/-- Printed bytes, and whether an escape asked for the end of all printing. -/
structure Printed where
  bytes : Bytes
  isOver : Bool := false

/-- A digit to the base of eight. -/
def isOctal (c : Char) : Bool := '0' ≤ c && c ≤ '7'

/-- The byte that up to three octal digits stand for. -/
def octalByte (digits : List Char) : UInt8 :=
  UInt8.ofNat (digits.foldl (fun n c => 8 * n + (c.toNat - '0'.toNat)) 0)

/-- The octal digits at the start of a text, of which at most three count. -/
def octalDigits (cs : List Char) : List Char := (cs.take 3).takeWhile isOctal

/-- The byte of an escape of one letter. -/
def letterEscape? : Char → Option UInt8
  | 'a' => some 7
  | 'b' => some 8
  | 'f' => some 12
  | 'n' => some 10
  | 'r' => some 13
  | 't' => some 9
  | 'v' => some 11
  | '\\' => some 92
  | _ => none

/-- Resolves the escapes of a text. In an argument an octal number may have a leading zero besides its
three digits, and an escape may end all printing. -/
def resolveEscapes (inArgument : Bool) : (fuel : Nat) → List Char → Printed
  | 0, _ => ⟨[], false⟩
  | _ + 1, [] => ⟨[], false⟩
  | fuel + 1, '\\' :: c :: rest =>
    let go := fun (found : Bytes) (after : List Char) =>
      let more := resolveEscapes inArgument fuel after
      (⟨found ++ more.bytes, more.isOver⟩ : Printed)
    match letterEscape? c with
    | some b => go [b] rest
    | none =>
      if inArgument && c == 'c' then ⟨[], true⟩
      else if inArgument && c == '0' then
        let digits := octalDigits rest
        go [octalByte digits] (rest.drop digits.length)
      else if isOctal c then
        let digits := octalDigits (c :: rest)
        go [octalByte digits] ((c :: rest).drop digits.length)
      else if c == '"' && !inArgument then go [34] rest
      else go (bytesOf '\\') (c :: rest)
  | fuel + 1, c :: rest =>
    let more := resolveEscapes inArgument fuel rest
    ⟨bytesOf c ++ more.bytes, more.isOver⟩

/-- The argument with its escapes resolved. -/
def resolveArgument (s : String) : Printed := resolveEscapes true (s.length + 1) s.toList

/-- Arguments with blanks between them. -/
def spaced (arguments : List String) : String := Text.join " " arguments

/-- The end of a line. -/
def lineFeed : Bytes := [10]

/-- What a shell prints as it echoes its arguments. -/
def echoed (arguments : List String) : Bytes :=
  let (ending, arguments) := match arguments with
    | "-n" :: rest => ([], rest)
    | arguments => (lineFeed, arguments)
  let printed := resolveArgument (spaced arguments)
  if printed.isOver then printed.bytes else printed.bytes ++ ending

/-- The arguments of the command that echoes outside of a shell: the line is ended, escapes are
resolved, and what is echoed. -/
def echoOptions (ended escaped : Bool) : List String → Bool × Bool × List String
  | "-n" :: rest => echoOptions false escaped rest
  | "-e" :: rest => echoOptions ended true rest
  | "-E" :: rest => echoOptions ended false rest
  | arguments => (ended, escaped, arguments)

/-- What the command that echoes outside of a shell prints. -/
def plainlyEchoed (arguments : List String) : Bytes :=
  let (ended, escaped, arguments) := echoOptions true false arguments
  let text := spaced arguments
  let printed : Printed := if escaped then resolveArgument text else ⟨Text.Utf8.encode text, false⟩
  if ended && !printed.isOver then printed.bytes ++ lineFeed else printed.bytes

/-! ## Formats -/

/-- How one argument is laid out. -/
structure Directive where
  toLeft : Bool := false
  zeros : Bool := false
  plus : Bool := false
  width : Nat := 0
  precision : Option Nat := none
  kind : Char

/-- The flags of a directive. -/
def flagsFrom (d : Directive) : List Char → Directive × List Char
  | '-' :: rest => flagsFrom { d with toLeft := true } rest
  | '0' :: rest => flagsFrom { d with zeros := true } rest
  | '+' :: rest => flagsFrom { d with plus := true } rest
  | ' ' :: rest => flagsFrom d rest
  | '#' :: rest => flagsFrom d rest
  | cs => (d, cs)

/-- A directive after its sign. -/
def directive (cs : List Char) : Option (Directive × List Char) :=
  let (d, cs) := flagsFrom { kind := 's' } cs
  let width := cs.takeWhile Char.isDigit
  let cs := cs.drop width.length
  let (precision, cs) := match cs with
    | '.' :: rest =>
      let digits := rest.takeWhile Char.isDigit
      (some (Decimal.natOf digits), rest.drop digits.length)
    | cs => (none, cs)
  match cs with
  | kind :: rest => some ({ d with width := Decimal.natOf width, precision, kind }, rest)
  | [] => none

/-- Bytes filled up to the width of a directive. -/
def Directive.fill (d : Directive) (bytes : Bytes) : Bytes :=
  let missing := d.width - bytes.length
  if d.toLeft then bytes ++ List.replicate missing 32 else List.replicate missing 32 ++ bytes

/-- A number laid out, its sign in front. -/
def Directive.number (d : Directive) (negative : Bool) (digits : String) : Bytes :=
  let sign := if negative then "-" else if d.plus then "+" else ""
  let digits := match d.precision with
    | some n => "".pushn '0' (n - digits.length) ++ digits
    | none =>
      if d.zeros && !d.toLeft then "".pushn '0' (d.width - sign.length - digits.length) ++ digits
      else digits
  d.fill (Text.Utf8.encode (sign ++ digits))

/-- The number that an argument stands for, and whether it is one. -/
def numericArgument (s : String) : Int × Bool :=
  let (negative, cs) := match s.toList with
    | '-' :: rest => (true, rest)
    | '+' :: rest => (false, rest)
    | cs => (false, cs)
  let (n, isNumber) : Nat × Bool := match cs with
    | '\'' :: c :: _ | '"' :: c :: _ => (c.toNat, true)
    | '0' :: 'x' :: rest =>
      let digits := rest.takeWhile fun c => (Json.hexValue? c).isSome
      (digits.foldl (fun n c => 16 * n + (Json.hexValue? c).getD 0) 0, digits.length == rest.length)
    | '0' :: d :: rest =>
      let digits := (d :: rest).takeWhile isOctal
      (digits.foldl (fun n c => 8 * n + (c.toNat - '0'.toNat)) 0, digits.length == rest.length + 1)
    | cs =>
      let digits := cs.takeWhile Char.isDigit
      (Decimal.natOf digits, digits.length == cs.length)
  (if negative then -(n : Int) else n, isNumber)

/-- The digits of a number that a letter asks for. -/
def digitsFor (kind : Char) (n : Nat) : String :=
  match kind with
  | 'x' => String.ofList (Nat.toDigits 16 n)
  | 'X' => String.ofList ((Nat.toDigits 16 n).map Char.toUpper)
  | 'o' => String.ofList (Nat.toDigits 8 n)
  | _ => Decimal.natText n

/-- What a format made of its arguments. -/
structure Formatted where
  bytes : Bytes := []
  /-- The arguments that have not been used. -/
  unused : List String
  /-- The arguments that are no numbers where numbers are asked for, the last one first. -/
  misfits : List String := []
  isOver : Bool := false
  /-- A directive has used an argument, or would have done so. -/
  consumes : Bool := false

/-- What a directive makes of the next argument. -/
def Directive.apply (d : Directive) (f : Formatted) : Formatted :=
  let argument := f.unused.head?.getD ""
  let f := { f with unused := f.unused.drop 1, consumes := true }
  let cut := fun (bytes : Bytes) => match d.precision with
    | some n => bytes.take n
    | none => bytes
  match d.kind with
  | 's' => { f with bytes := f.bytes ++ d.fill (cut (Text.Utf8.encode argument)) }
  | 'c' => { f with bytes := f.bytes ++ d.fill ((Text.Utf8.encode argument).take 1) }
  | 'b' =>
    let printed := resolveArgument argument
    { f with bytes := f.bytes ++ d.fill (cut printed.bytes), isOver := printed.isOver }
  | kind =>
    if ['d', 'i', 'u', 'x', 'X', 'o'].contains kind then
      let (n, isNumber) := if argument.isEmpty then (0, true) else numericArgument argument
      { f with
        bytes := f.bytes ++ d.number (decide (n < 0)) (digitsFor kind n.natAbs)
        misfits := if isNumber then f.misfits else argument :: f.misfits }
    else { f with misfits := String.singleton kind :: f.misfits, isOver := true }

/-- Goes through a format once. -/
def formatOnce : (fuel : Nat) → Formatted → List Char → Formatted
  | 0, f, _ => f
  | _ + 1, f, [] => f
  | fuel + 1, f, '%' :: '%' :: rest => formatOnce fuel { f with bytes := f.bytes ++ bytesOf '%' } rest
  | fuel + 1, f, '%' :: rest =>
    match directive rest with
    | none => { f with misfits := "%" :: f.misfits, isOver := true }
    | some (d, after) =>
      let f := d.apply f
      if f.isOver then f else formatOnce fuel f after
  | fuel + 1, f, cs =>
    let plain := cs.takeWhile (· != '%')
    let printed := resolveEscapes false (plain.length + 1) plain
    formatOnce fuel { f with bytes := f.bytes ++ printed.bytes } (cs.drop plain.length)

/-- Goes through a format until all arguments are used. -/
def formatAll (format : List Char) : (fuel : Nat) → Formatted → Formatted
  | 0, f => f
  | fuel + 1, f =>
    let f := formatOnce (format.length + 1) f format
    if f.isOver || f.unused.isEmpty || !f.consumes then f else formatAll format fuel f

/-- What the command that lays out its arguments prints, and the arguments that did not fit. -/
def formatted (format : String) (arguments : List String) : Bytes × List String :=
  let f := formatAll format.toList (arguments.length + 1) { unused := arguments }
  (f.bytes, f.misfits.reverse)

/-- The complaint about an argument that is no number. -/
def misfitText (s : String) : String := s ++ ": expected numeric value"

/-- The format and its arguments, behind a double dash if there is one. -/
def formatArguments : List String → List String
  | "--" :: rest => rest
  | arguments => arguments

end Assay.Shell

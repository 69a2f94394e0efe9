import Assay.Datum
import Assay.Decimal.Text
import Assay.Text.Split

/-!
# Writing JSON

A value is written either on one line without blanks, or with every item and entry on a line of its
own, indented by its depth. Only quotes, backslashes and control characters are escaped.
-/

namespace Assay.Json

/-- A hexadecimal digit. -/
def hexDigit (n : Nat) : Char := if n < 10 then Char.ofNat (48 + n) else Char.ofNat (87 + n)

/-- A character inside quotes. -/
def escaped (c : Char) : List Char :=
  match c with
  | '"' => ['\\', '"']
  | '\\' => ['\\', '\\']
  | '\n' => ['\\', 'n']
  | '\r' => ['\\', 'r']
  | '\t' => ['\\', 't']
  | '\x08' => ['\\', 'b']
  | '\x0c' => ['\\', 'f']
  | c =>
    if c.toNat < 32 then ['\\', 'u', '0', '0', hexDigit (c.toNat / 16), hexDigit (c.toNat % 16)]
    else [c]

/-- A text in quotes. -/
def quotedText (s : String) : String := "\"" ++ String.ofList (s.toList.flatMap escaped) ++ "\""

/-- What stands between the parts of a value: how far a level is indented, if lines are broken. -/
structure Layout where
  indent : Option Nat

/-- A line break and the indentation of a depth, if lines are broken. -/
def Layout.break (l : Layout) (depth : Nat) : String :=
  match l.indent with
  | none => ""
  | some n => "\n" ++ String.ofList (List.replicate (n * depth) ' ')

/-- What stands between a key and its value. -/
def Layout.colon (l : Layout) : String := if l.indent.isSome then ": " else ":"

/-- Parts between brackets, at a depth. -/
def Layout.bracketed (l : Layout) (opening closing : String) (depth : Nat) (parts : List String) :
    String :=
  if parts.isEmpty then opening ++ closing
  else
    opening ++ l.break (depth + 1) ++ Text.join ("," ++ l.break (depth + 1)) parts ++ l.break depth ++
      closing

mutual

/-- A value at a depth. -/
def writeAt (l : Layout) (depth : Nat) : Datum → String
  | .null => "null"
  | .bool b => if b then "true" else "false"
  | .int n => Decimal.intText n
  | .float x => Decimal.floatText x
  | .text s => quotedText s
  | .moment s => quotedText s
  | .list items => l.bracketed "[" "]" depth (writeItems l (depth + 1) items)
  | .table entries => l.bracketed "\x7b" "\x7d" depth (writeEntries l (depth + 1) entries)

/-- The items of a list at a depth. -/
def writeItems (l : Layout) (depth : Nat) : List Datum → List String
  | [] => []
  | d :: rest => writeAt l depth d :: writeItems l depth rest

/-- The entries of a table at a depth. -/
def writeEntries (l : Layout) (depth : Nat) : List (String × Datum) → List String
  | [] => []
  | (key, d) :: rest =>
    (quotedText key ++ l.colon ++ writeAt l depth d) :: writeEntries l depth rest

end

/-- A value on one line. -/
def compact (d : Datum) : String := writeAt ⟨none⟩ 0 d

/-- A value with broken lines, each level indented by this many blanks. -/
def pretty (indent : Nat) (d : Datum) : String := writeAt ⟨some indent⟩ 0 d

/-! ## Plain text -/

/-- The escape of a number below 2^16. -/
def unitEscape (n : Nat) : List Char :=
  '\\' :: 'u' :: [n / 4096, n / 256 % 16, n / 16 % 16, n % 16].map hexDigit

/-- A character, in escapes if it lies beyond ASCII: one escape or a pair of them. -/
def plainChar (c : Char) : List Char :=
  let n := c.toNat
  if n < 128 then [c]
  else if n < 0x10000 then unitEscape n
  else unitEscape (0xD800 + (n - 0x10000) / 1024) ++ unitEscape (0xDC00 + (n - 0x10000) % 1024)

/-- A document with every character beyond ASCII in escapes. Such characters stand in strings only, so
the document says the same. -/
def plain (document : String) : String := String.ofList (document.toList.flatMap plainChar)

end Assay.Json

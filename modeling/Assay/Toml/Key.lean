import Assay.Datum
import Assay.Json.Reader

/-!
# Keys and strings of TOML

A key is a row of parts, bare or quoted. Strings are literal or have escapes, and stand on one line or
between triple quotes. Control characters stand nowhere but for the tab, and for the line feed between
triple quotes.
-/

namespace Assay.Toml

/-- Why a text is not read. -/
inductive Fault where
  /-- It is not in the format. -/
  | invalid
  /-- A whole number has more digits than are read. -/
  | tooLong (digits : Nat)
  /-- Values are nested too deeply. -/
  | tooDeep
deriving Repr, DecidableEq

/-- The outcome of reading a part of a text: the part and the text after it. -/
abbrev Step (α : Type) := Except Fault (α × List Char)

/-- A key: its parts from the outside in. -/
abbrev Key := List String

/-- The blanks within a line. -/
def isSpace (c : Char) : Bool := c == ' ' || c == '\t'

/-- The text after the blanks at its start. -/
def skipSpace (cs : List Char) : List Char := cs.dropWhile isSpace

/-- A control character other than a tab. -/
def isControl (c : Char) : Bool := (c.toNat < 32 && c != '\t') || c.toNat == 127

/-- A control character that may not even stand between triple quotes. -/
def isStrictControl (c : Char) : Bool := isControl c && c != '\n'

/-- The text from the end of the line on, after a comment if there is one. -/
def skipComment : List Char → Except Fault (List Char)
  | '#' :: rest =>
    let comment := rest.takeWhile (· != '\n')
    if comment.any isControl then .error .invalid else .ok (rest.drop comment.length)
  | cs => .ok cs

/-! ## Strings -/

/-- The number that hexadecimal digits make up. -/
def hexOf? (digits : List Char) : Option Nat :=
  digits.foldlM (fun n c => (Json.hexValue? c).map fun d => 16 * n + d) 0

/-- The character of an escape by its number, written with `width` digits. -/
def numbered (width : Nat) (cs : List Char) : Step Char :=
  let digits := cs.take width
  if digits.length != width then .error .invalid
  else match hexOf? digits with
    | none => .error .invalid
    | some n =>
      if n < 0xD800 || (0xE000 ≤ n && n ≤ 0x10FFFF) then .ok (Char.ofNat n, cs.drop width)
      else .error .invalid

/-- The character of a short escape. -/
def shortEscape? : Char → Option Char
  | 'b' => some '\x08'
  | 't' => some '\t'
  | 'n' => some '\n'
  | 'f' => some '\x0c'
  | 'r' => some '\r'
  | '"' => some '"'
  | '\\' => some '\\'
  | _ => none

/-- The characters of an escape after its backslash. -/
def escape : List Char → Step (List Char)
  | 'u' :: rest => (numbered 4 rest).map fun (c, after) => ([c], after)
  | 'U' :: rest => (numbered 8 rest).map fun (c, after) => ([c], after)
  | c :: rest =>
    match shortEscape? c with
    | some d => .ok ([d], rest)
    | none => .error .invalid
  | [] => .error .invalid

/-- A blank or a line feed. -/
def isSpaceOrFeed (c : Char) : Bool := isSpace c || c == '\n'

/-- An escape between triple quotes. A backslash at the end of a line swallows the end of the line and
the blanks after it. -/
def longEscape : List Char → Step (List Char)
  | '\n' :: rest => .ok ([], rest.dropWhile isSpaceOrFeed)
  | c :: rest =>
    if isSpace c then
      match skipSpace rest with
      | [] => .ok ([], [])
      | '\n' :: after => .ok ([], after.dropWhile isSpaceOrFeed)
      | _ => .error .invalid
    else escape (c :: rest)
  | [] => .error .invalid

/-- The rest of a string with escapes on one line; `acc` holds its characters in reverse. -/
def basicFrom : (fuel : Nat) → List Char → List Char → Step String
  | 0, _, _ => .error .invalid
  | _ + 1, _, [] => .error .invalid
  | _ + 1, acc, '"' :: rest => .ok (String.ofList acc.reverse, rest)
  | fuel + 1, acc, '\\' :: rest =>
    match escape rest with
    | .error f => .error f
    | .ok (cs, after) => basicFrom fuel (cs.reverse ++ acc) after
  | fuel + 1, acc, c :: rest =>
    if isControl c then .error .invalid else basicFrom fuel (c :: acc) rest

/-- A string with escapes on one line, its opening quote being read. -/
def basic (cs : List Char) : Step String := basicFrom (cs.length + 1) [] cs

/-- A literal string on one line, its opening quote being read. -/
def literal (cs : List Char) : Step String :=
  let body := cs.takeWhile (· != '\'')
  match cs.drop body.length with
  | _ :: rest => if body.any isControl then .error .invalid else .ok (String.ofList body, rest)
  | [] => .error .invalid

/-- Up to two more quotes that belong to a string between triple quotes. -/
def extraQuotes (quote : Char) (s : String) : List Char → String × List Char
  | a :: b :: rest =>
    if a == quote && b == quote then (s ++ String.ofList [a, b], rest)
    else if a == quote then (s ++ String.ofList [a], b :: rest)
    else (s, a :: b :: rest)
  | [a] => if a == quote then (s ++ String.ofList [a], []) else (s, [a])
  | [] => (s, [])

/-- A line feed right after the opening quotes does not count. -/
def dropFirstFeed : List Char → List Char
  | '\n' :: rest => rest
  | cs => cs

/-- The rest of a string with escapes between triple quotes. -/
def longBasicFrom : (fuel : Nat) → List Char → List Char → Step String
  | 0, _, _ => .error .invalid
  | _ + 1, _, [] => .error .invalid
  | _ + 1, acc, '"' :: '"' :: '"' :: rest =>
    .ok (extraQuotes '"' (String.ofList acc.reverse) rest)
  | fuel + 1, acc, '\\' :: rest =>
    match longEscape rest with
    | .error f => .error f
    | .ok (cs, after) => longBasicFrom fuel (cs.reverse ++ acc) after
  | fuel + 1, acc, c :: rest =>
    if isStrictControl c then .error .invalid else longBasicFrom fuel (c :: acc) rest

/-- A string with escapes, its three opening quotes being read. -/
def longBasic (cs : List Char) : Step String :=
  longBasicFrom (cs.length + 1) [] (dropFirstFeed cs)

/-- The rest of a literal string between triple quotes. -/
def longLiteralFrom : List Char → List Char → Step String
  | _, [] => .error .invalid
  | acc, '\'' :: '\'' :: '\'' :: rest => .ok (extraQuotes '\'' (String.ofList acc.reverse) rest)
  | acc, c :: rest =>
    if isStrictControl c then .error .invalid else longLiteralFrom (c :: acc) rest

/-- A literal string, its three opening quotes being read. -/
def longLiteral (cs : List Char) : Step String := longLiteralFrom [] (dropFirstFeed cs)

/-! ## Keys -/

/-- A character of a bare key. -/
def isBare (c : Char) : Bool := c.isAlphanum || c == '-' || c == '_'

/-- A character that a key may begin with. -/
def beginsKey (c : Char) : Bool := isBare c || c == '"' || c == '\''

/-- One part of a key. -/
def keyPart : List Char → Step String
  | '\'' :: rest => literal rest
  | '"' :: rest => basic rest
  | cs =>
    let part := cs.takeWhile isBare
    if part.isEmpty then .error .invalid else .ok (String.ofList part, cs.drop part.length)

/-- The parts of a key, joined by points with blanks around them. -/
def keyParts : (fuel : Nat) → List Char → Step Key
  | 0, _ => .error .invalid
  | fuel + 1, cs =>
    match keyPart cs with
    | .error f => .error f
    | .ok (part, rest) =>
      match skipSpace rest with
      | '.' :: more => (keyParts fuel (skipSpace more)).map fun (parts, after) => (part :: parts, after)
      | after => .ok ([part], after)

/-- A key and the blanks after it. -/
def key (cs : List Char) : Step Key := keyParts (cs.length + 1) cs

end Assay.Toml

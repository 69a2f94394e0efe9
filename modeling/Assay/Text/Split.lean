/-!
# Splitting, joining and searching

Plain operations on texts that compare character by character.
-/

namespace Assay.Text

/-- The pieces between the separators, given the piece read so far in reverse; a text without the
separator is one piece. -/
def splitFrom (sep : Char) : List Char → List Char → List (List Char)
  | acc, [] => [acc.reverse]
  | acc, c :: rest => if c == sep then acc.reverse :: splitFrom sep [] rest else splitFrom sep (c :: acc) rest

/-- The pieces of a text between the separators, at least one. -/
def splitOn (sep : Char) (s : String) : List String := (splitFrom sep [] s.toList).map String.ofList

/-- What stands before the first `sep` and what stands after it; `none` if there is no `sep`. -/
def cut (sep : Char) : List Char → Option (List Char × List Char)
  | [] => none
  | c :: rest => if c == sep then some ([], rest) else (cut sep rest).map fun (a, b) => (c :: a, b)

/-- The first list begins the second. -/
def startsWith : List Char → List Char → Bool
  | [], _ => true
  | _ :: _, [] => false
  | p :: ps, c :: cs => p == c && startsWith ps cs

/-- What follows the first list in the second, if it begins it. -/
def dropStart? : List Char → List Char → Option (List Char)
  | [], cs => some cs
  | _ :: _, [] => none
  | p :: ps, c :: cs => if p == c then dropStart? ps cs else none

/-- The first list ends the second. -/
def endsWith (suffix cs : List Char) : Bool := startsWith suffix.reverse cs.reverse

/-- The first list stands somewhere in the second. -/
def occursIn (needle : List Char) : List Char → Bool
  | [] => needle.isEmpty
  | c :: cs => startsWith needle (c :: cs) || occursIn needle cs

/-- The characters before one line feed at the end. -/
def beforeLastFeed (cs : List Char) : List Char :=
  match cs.getLast? with
  | some '\n' => cs.dropLast
  | _ => cs

/-- The text begins with `start`. -/
def hasStart (start s : String) : Bool := startsWith start.toList s.toList

/-- The text ends with `ending`. -/
def hasEnd (ending s : String) : Bool := endsWith ending.toList s.toList

/-- The text holds `needle` somewhere. -/
def contains (needle s : String) : Bool := occursIn needle.toList s.toList

/-- The text with every occurrence of one character replaced by a text. -/
def replaceChar (c : Char) (by_ : String) (s : String) : String :=
  String.ofList (s.toList.flatMap fun d => if d == c then by_.toList else [d])

/-- The characters with every occurrence of `old` replaced, found from the left; at most `fuel`
characters are gone through. -/
def replaceFrom (old new : List Char) : (fuel : Nat) → List Char → List Char
  | 0, cs => cs
  | _ + 1, [] => []
  | fuel + 1, c :: cs =>
    match dropStart? old (c :: cs) with
    | some rest => new ++ replaceFrom old new fuel rest
    | none => c :: replaceFrom old new fuel cs

/-- The text with every occurrence of one text replaced by another. -/
def replace (old new s : String) : String :=
  if contains old s then String.ofList (replaceFrom old.toList new.toList s.length s.toList) else s

/-- The texts joined with `sep` between neighbours. -/
def join (sep : String) : List String → String
  | [] => ""
  | [s] => s
  | s :: rest => s ++ sep ++ join sep rest

/-- The first `n` characters. -/
def take (n : Nat) (s : String) : String := String.ofList (s.toList.take n)

/-- The last `n` characters. -/
def takeLast (n : Nat) (s : String) : String :=
  String.ofList (s.toList.drop (s.toList.length - n))

/-!
## Lines

A text is broken into lines at every line boundary of Unicode. A carriage return with the line feed
after it is one boundary, and a boundary at the very end opens no further line.
-/

/-- A character that ends a line. -/
def isLineBreak (c : Char) : Bool :=
  let n := c.toNat
  (10 ≤ n && n ≤ 13) || (28 ≤ n && n ≤ 30) || n == 0x85 || n == 0x2028 || n == 0x2029

/-- The lines of the rest of a text, given the line read so far in reverse and whether the last
character was a carriage return whose line has ended already. -/
def linesFrom : List Char → Bool → List Char → List (List Char)
  | acc, _, [] => if acc.isEmpty then [] else [acc.reverse]
  | acc, afterReturn, c :: rest =>
    if afterReturn && c == '\n' then linesFrom acc false rest
    else if isLineBreak c then acc.reverse :: linesFrom [] (c == '\r') rest
    else linesFrom (c :: acc) false rest

/-- The lines of a text, without their boundaries. -/
def lines (s : String) : List String := (linesFrom [] false s.toList).map String.ofList

end Assay.Text

import Assay.Markup.Reference

/-!
# Marks of declarations

A declaration is a row of marks between its opening keyword and its closing bracket: names, quoted
texts, brackets and connectors. A mark has to be followed by something that may stand behind it, so
that `a"b"` is no row of two marks.
-/

namespace Assay.Markup

/-- A mark inside a declaration. -/
inductive Mark where
  /-- A name without a colon. -/
  | word (cs : List Char)
  /-- A name with a namespace mark and a colon in front. -/
  | qualified (cs : List Char)
  /-- A row of name characters that is no name. -/
  | characters (cs : List Char)
  /-- A name and how often what it names may occur. -/
  | counted (cs : List Char) (count : Char)
  /-- A name behind a number sign. -/
  | sign (cs : List Char)
  | quoted (inside : List Char)
  | percent
  | opening
  /-- A closing bracket, and how often the group may occur. -/
  | closing (count : Option Char)
  | comma
  | bar
deriving Repr, DecidableEq

namespace Mark

/-- One of the characters that say how often something may occur. -/
def isCount (c : Char) : Bool := c == '?' || c == '*' || c == '+'

/-- The text begins with a blank or with one of the given characters. -/
def isFollowedBy (others : List Char) : List Char → Bool
  | c :: _ => isSpace c || others.contains c
  | [] => false

/-- What a row of name characters and colons is. -/
def ofRun (run : List Char) : Mark :=
  match qualifiedRun run with
  | some true => .qualified run
  | some false => .word run
  | none => .characters run
where
  /-- Whether a name has a colon; `none` if the row is no name. -/
  qualifiedRun : List Char → Option Bool
    | c :: rest =>
      if !startsName c then none
      else
        match Text.cut ':' rest with
        | none => some false
        | some (_, second) => if second.isEmpty || second.contains ':' then none else some true
    | [] => none

/-- A mark that begins with a row of name characters. -/
def readRun (cs : List Char) : Option (Mark × List Char) :=
  let belongs := fun c => continuesName c || c == ':'
  let run := cs.takeWhile belongs
  let rest := cs.dropWhile belongs
  if run.isEmpty then none
  else if isFollowedBy ['>', ')', ',', '|', '[', '%'] rest then some (ofRun run, rest)
  else
    match rest, ofRun run with
    | _, .characters _ => none
    | c :: after, _ => if isCount c then some (.counted run c, after) else none
    | [], _ => none

/-- A quoted text. -/
def readQuoted (cs : List Char) : Option (Mark × List Char) := do
  let (inside, rest) ← quotedText cs
  if isFollowedBy ['>', '%', '['] rest then return (.quoted inside, rest) else none

/-- The mark at the start of a text. -/
def read : List Char → Option (Mark × List Char)
  | ',' :: rest => some (.comma, rest)
  | '|' :: rest => some (.bar, rest)
  | '(' :: rest => some (.opening, rest)
  | ')' :: rest =>
    match rest with
    | c :: after =>
      if isCount c then some (.closing (some c), after)
      else if isFollowedBy ['>', ',', '|', ')'] rest then some (.closing none, rest)
      else none
    | [] => none
  | '%' :: rest => if isFollowedBy ['%'] rest then some (.percent, rest) else none
  | '#' :: rest => do
    let (name, after) ← plainName rest
    if isFollowedBy [')', '>', '%', '|'] after then return (.sign name, after) else none
  | cs =>
    match cs with
    | c :: _ => if c == '"' || c == '\'' then readQuoted cs else readRun cs
    | [] => none

/-- The marks up to the first of the `ends`, put behind `acc`, which is in reverse; then that
character and the text after it. -/
def readFrom (ends : List Char) : (fuel : Nat) → List Mark → List Char →
    Option (List Mark × Char × List Char)
  | 0, _, _ => none
  | fuel + 1, acc, cs =>
    match skipSpace cs with
    | [] => none
    | c :: rest =>
      if ends.contains c then some (acc.reverse, c, rest)
      else
        match read (c :: rest) with
        | some (mark, after) => readFrom ends fuel (mark :: acc) after
        | none => none

/-- The marks up to the first of the `ends`, then that character and the text after it. -/
def readUntil (ends : List Char) (cs : List Char) : Option (List Mark × Char × List Char) :=
  readFrom ends (cs.length + 1) [] cs

end Mark

end Assay.Markup

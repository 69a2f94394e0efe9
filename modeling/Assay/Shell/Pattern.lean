import Assay.Text.Split

/-!
# Patterns of a shell

A pattern stands for the texts that it matches as a whole: a star for any characters, a question mark
for one, a bracket for one out of a class. Characters that were quoted stand for themselves.
-/

namespace Assay.Shell

/-- A part of a pattern, which matches characters of a text. -/
inductive Matcher where
  | one (c : Char)
  | anyOne
  | anyMany
  /-- One character in the ranges, or outside of them. -/
  | member (negated : Bool) (ranges : List (Char × Char))
deriving Repr, DecidableEq

namespace Matcher

/-- The character is one of those that a part stands for. -/
def accepts (c : Char) : Matcher → Bool
  | one d => c == d
  | anyOne => true
  | anyMany => true
  | member negated ranges =>
    (ranges.any fun (lo, hi) => lo.toNat ≤ c.toNat && c.toNat ≤ hi.toNat) != negated

/-- The ranges of a class up to its closing bracket; a bracket that comes first stands for itself. -/
def rangesFrom (ranges : List (Char × Char)) (first : Bool) :
    List Char → Option (List (Char × Char) × List Char)
  | [] => none
  | ']' :: rest =>
    if first then rangesFrom (ranges ++ [(']', ']')]) false rest else some (ranges, rest)
  | a :: '-' :: ']' :: rest => some (ranges ++ [(a, a), ('-', '-')], rest)
  | a :: '-' :: b :: rest => rangesFrom (ranges ++ [(a, b)]) false rest
  | a :: rest => rangesFrom (ranges ++ [(a, a)]) false rest

/-- A class after its opening bracket. -/
def memberFrom (cs : List Char) : Option (Matcher × List Char) :=
  match cs with
  | '!' :: rest => (rangesFrom [] true rest).map fun (ranges, after) => (.member true ranges, after)
  | cs => (rangesFrom [] true cs).map fun (ranges, after) => (.member false ranges, after)

/-- The parts of a pattern of which nothing is quoted. -/
def ofChars : (fuel : Nat) → List Char → List Matcher
  | 0, _ => []
  | _ + 1, [] => []
  | fuel + 1, '*' :: rest => .anyMany :: ofChars fuel rest
  | fuel + 1, '?' :: rest => .anyOne :: ofChars fuel rest
  | fuel + 1, '\\' :: c :: rest => .one c :: ofChars fuel rest
  | fuel + 1, '[' :: rest =>
    match memberFrom rest with
    | some (m, after) => m :: ofChars fuel after
    | none => .one '[' :: ofChars fuel rest
  | fuel + 1, c :: rest => .one c :: ofChars fuel rest

/-- The parts of a text, all of whose characters stand for themselves if it is quoted. -/
def ofText (quoted : Bool) (s : String) : List Matcher :=
  if quoted then s.toList.map one else ofChars (s.length + 1) s.toList

/-- The parts match the text as a whole. -/
def matchesAll : List Matcher → List Char → Bool
  | [], cs => cs.isEmpty
  | .anyMany :: ms, [] => matchesAll ms []
  | .anyMany :: ms, c :: cs => matchesAll ms (c :: cs) || matchesAll (.anyMany :: ms) cs
  | m :: ms, c :: cs => m.accepts c && matchesAll ms cs
  | _ :: _, [] => false

/-- The text without the shortest or longest start that the parts match. -/
def dropStart (longest : Bool) (ms : List Matcher) (cs : List Char) : List Char :=
  let lengths := List.range (cs.length + 1)
  let lengths := if longest then lengths.reverse else lengths
  match lengths.find? fun n => matchesAll ms (cs.take n) with
  | some n => cs.drop n
  | none => cs

/-- The text without the shortest or longest end that the parts match. -/
def dropEnd (longest : Bool) (ms : List Matcher) (cs : List Char) : List Char :=
  let lengths := List.range (cs.length + 1)
  let lengths := if longest then lengths else lengths.reverse
  match lengths.find? fun n => matchesAll ms (cs.drop n) with
  | some n => cs.take n
  | none => cs

end Matcher

end Assay.Shell

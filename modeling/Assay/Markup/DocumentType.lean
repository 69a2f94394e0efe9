import Assay.Markup.Mark

/-!
# Declarations of a document's type

At its head a document may declare its type: where more declarations are kept, and then some of its
own, about elements, attributes, notations and entities. None is ever checked against the document,
but each has to be well formed. What they say of attributes counts for the tags below, and a
declaration of an entity that would come to mean something is refused.
-/

namespace Assay.Markup

/-- What the declarations say about an attribute of an element. -/
structure AttributeRule where
  element : List Char
  key : List Char
  /-- Its values are rows of words, so that only single blanks between words count. -/
  spaced : Bool
  /-- The value where a tag gives none. -/
  value? : Option (List Char)
deriving Repr, DecidableEq

/-- What the head of a document has said. -/
structure Prologue where
  /-- No declaration outside of the document matters. -/
  alone : Bool
  /-- There are declarations that were not read. -/
  outside : Bool
  /-- The declarations still count: none that was not read stands in front. -/
  heeded : Bool
  /-- What is declared of attributes, in the order of the declarations, at most one rule for each. -/
  rules : List AttributeRule
deriving Repr, DecidableEq

/-- Nothing has been said. -/
def Prologue.start : Prologue := ⟨false, false, true, []⟩

/-- Entities that nothing declares may be left out of values. -/
def Prologue.isLenient (p : Prologue) : Bool := p.outside && !p.alone

/-- Declarations stand in front that are not read. -/
def Prologue.missOut (p : Prologue) : Prologue :=
  { p with outside := true, heeded := p.alone }

/-- The rule for an attribute of an element. -/
def Prologue.rule? (p : Prologue) (element key : List Char) : Option AttributeRule :=
  p.rules.find? fun r => r.element == element && r.key == key

/-- The prologue with one more rule, unless there is one for the attribute. -/
def Prologue.addRule (p : Prologue) (r : AttributeRule) : Prologue :=
  if (p.rule? r.element r.key).isSome then p else { p with rules := p.rules ++ [r] }

/-- The attributes of a tag as the rules have them: rows of words single spaced, and behind those
that are given the ones with a value of their own. -/
def Prologue.complete (p : Prologue) (element : List Char)
    (given : List (List Char × List Char)) : List (List Char × List Char) :=
  let written := given.map fun (key, value) =>
    match p.rule? element key with
    | some r => (key, if r.spaced then singleSpaced value else value)
    | none => (key, value)
  let others := p.rules.filterMap fun r =>
    if r.element == element && !given.any fun a => a.1 == r.key then
      r.value?.map fun value => (r.key, value)
    else none
  written ++ others

namespace DocumentType

/-- A character of a public identifier. -/
def isPublic (c : Char) : Bool :=
  c.isAlphanum || [' ', '\n', '\r', '-', '\'', '(', ')', '+', ',', '.', '/', ':', '=', '?', ';', '!', '*',
    '#', '@', '$', '_', '%'].contains c

/-- The characters spell a keyword. -/
def isKeyword (word : String) (cs : List Char) : Bool := cs == word.toList

/-- What stands behind the name of a place outside, which is a system identifier, or a public one and
then a system identifier. -/
def afterPlace : List Mark → Option (List Mark)
  | .word key :: .quoted first :: rest =>
    if isKeyword "SYSTEM" key then some rest
    else if isKeyword "PUBLIC" key && first.all isPublic then
      match rest with
      | .quoted _ :: rest => some rest
      | _ => none
    else none
  | _ => none

/-- The marks declare a notation: a place outside, or only a public identifier. -/
def isNotation : List Mark → Bool
  | [.word _, .word key, .quoted identifier] =>
    isKeyword "SYSTEM" key || (isKeyword "PUBLIC" key && identifier.all isPublic)
  | .word _ :: place => afterPlace place == some []
  | _ => false

/-- The marks continue a group of text and elements up to its end. -/
def isMixed : List Mark → Bool
  | [.closing count] => count == some '*'
  | .bar :: .word _ :: rest => isMixed rest
  | .bar :: .qualified _ :: rest => isMixed rest
  | _ => false

/-- The marks continue groups of elements up to the end of the outermost one. For each group that is
open, the innermost first, `joins` holds the connector it uses, as all its connectors are the same;
`awaiting` tells whether the next mark has to begin an item. -/
def isGroup : (awaiting : Bool) → (joins : List (Option Mark)) → List Mark → Bool
  | true, joins, .opening :: rest => isGroup true (none :: joins) rest
  | true, joins, .word _ :: rest => isGroup false joins rest
  | true, joins, .qualified _ :: rest => isGroup false joins rest
  | true, joins, .counted _ _ :: rest => isGroup false joins rest
  | false, [_], .closing _ :: rest => rest.isEmpty
  | false, _ :: joins, .closing _ :: rest => isGroup false joins rest
  | false, join :: joins, .comma :: rest =>
    join.getD .comma == .comma && isGroup true (some .comma :: joins) rest
  | false, join :: joins, .bar :: rest =>
    join.getD .bar == .bar && isGroup true (some .bar :: joins) rest
  | _, _, _ => false

/-- The marks say what an element holds. -/
def isContent : List Mark → Bool
  | [.word key] => isKeyword "EMPTY" key || isKeyword "ANY" key
  | .opening :: .sign key :: rest =>
    isKeyword "PCDATA" key && (rest == [.closing none] || isMixed rest)
  | .opening :: rest => isGroup true [none] rest
  | _ => false

/-- The marks declare an element. -/
def isElement : List Mark → Bool
  | .word _ :: content => isContent content
  | .qualified _ :: content => isContent content
  | _ => false

/-- What stands behind the choices of an enumeration, whose bracket has been read. -/
def afterChoices (isChoice : Mark → Bool) : List Mark → Option (List Mark)
  | m :: .bar :: rest => if isChoice m then afterChoices isChoice rest else none
  | m :: .closing none :: rest => if isChoice m then some rest else none
  | _ => none

/-- A row of name characters. -/
def isCharacters : Mark → Bool
  | .word _ | .qualified _ | .characters _ => true
  | _ => false

/-- A name without a colon. -/
def isWord : Mark → Bool
  | .word _ => true
  | _ => false

/-- The kind of an attribute's values: whether they are rows of words, and what stands behind. -/
def kindOf? : List Mark → Option (Bool × List Mark)
  | .opening :: rest => (afterChoices isCharacters rest).map fun after => (true, after)
  | .word key :: rest =>
    if isKeyword "CDATA" key then some (false, rest)
    else if ["ID", "IDREF", "IDREFS", "ENTITY", "ENTITIES", "NMTOKEN", "NMTOKENS"].any
        (isKeyword · key) then
      some (true, rest)
    else if isKeyword "NOTATION" key then
      match rest with
      | .opening :: rest => (afterChoices isWord rest).map fun after => (true, after)
      | _ => none
    else none
  | _ => none

/-- What an attribute is where a tag does not give it: a value as it is written, or nothing; and what
stands behind. -/
def fallbackOf? : List Mark → Option (Option (List Char) × List Mark)
  | .quoted inside :: rest => some (some inside, rest)
  | .sign key :: rest =>
    if isKeyword "REQUIRED" key || isKeyword "IMPLIED" key then some (none, rest)
    else if isKeyword "FIXED" key then
      match rest with
      | .quoted inside :: rest => some (some inside, rest)
      | _ => none
    else none
  | _ => none

/-- The prologue with the attributes that the marks declare for an element. -/
def withAttributes (element : List Char) : (fuel : Nat) → Prologue → List Mark → Option Prologue
  | _, p, [] => some p
  | 0, _, _ :: _ => none
  | fuel + 1, p, mark :: rest => do
    let key ← match mark with
      | .word cs => some cs
      | .qualified cs => some cs
      | _ => none
    let (spaced, rest) ← kindOf? rest
    let (fallback, rest) ← fallbackOf? rest
    if !p.heeded then withAttributes element fuel p rest
    else
      let value? ← match fallback with
        | some inside => (valueOf? p.isLenient inside).map some
        | none => some none
      withAttributes element fuel (p.addRule ⟨element, key, spaced,
        value?.map fun v => if spaced then singleSpaced v else v⟩) rest

/-- The text of an entity is well formed: every reference in it is one, and no percent sign stands in
it. -/
def isEntityText : (fuel : Nat) → List Char → Bool
  | _, [] => true
  | 0, _ :: _ => false
  | fuel + 1, c :: rest =>
    if c == '%' then false
    else if c == '&' then
      match reference rest with
      | some (_, after) => isEntityText fuel after
      | none => false
    else isEntityText fuel rest

/-- The marks say what an entity is: a text, which is given back, or a place outside and possibly a
notation, where the latter is allowed. -/
def entityText? (isGeneral : Bool) : List Mark → Option (Option (List Char))
  | [.quoted inside] => some (some inside)
  | marks =>
    match afterPlace marks with
    | some [] => some none
    | some [.word key, .word _] => if isGeneral && isKeyword "NDATA" key then some none else none
    | _ => none

/-- The prologue after a declaration of an entity. While declarations count, only the entities that
every document has may be declared, which changes nothing. -/
def withEntity (p : Prologue) : List Mark → Option Prologue
  | .percent :: .word _ :: rest =>
    match entityText? false rest with
    | some _ => if p.heeded then none else some p
    | none => none
  | .word name :: rest =>
    match entityText? true rest with
    | some text? =>
      if !p.heeded then some p
      else if (predefined? name).isSome &&
          (text?.all fun inside => isEntityText inside.length inside) then some p
      else none
    | none => none
  | _ => none

/-- The prologue after a declaration with a keyword. -/
def withDeclaration (p : Prologue) (key : List Char) (marks : List Mark) : Option Prologue :=
  if isKeyword "ELEMENT" key then if isElement marks then some p else none
  else if isKeyword "NOTATION" key then if isNotation marks then some p else none
  else if isKeyword "ENTITY" key then withEntity p marks
  else if isKeyword "ATTLIST" key then
    match marks with
    | .word element :: rest => withAttributes element rest.length p rest
    | .qualified element :: rest => withAttributes element rest.length p rest
    | _ => none
  else none

/-- The marks of the type itself: its name, and possibly a place outside. The prologue after them. -/
def withType (p : Prologue) : List Mark → Option Prologue
  | [.word _] => some p
  | [.qualified _] => some p
  | .word _ :: place => if afterPlace place == some [] then some { p with outside := true } else none
  | .qualified _ :: place =>
    if afterPlace place == some [] then some { p with outside := true } else none
  | _ => none

end DocumentType

end Assay.Markup

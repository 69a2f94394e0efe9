import Assay.Shell.Action
import Assay.Shell.Arithmetic
import Assay.Shell.Pattern

/-!
# Expanding words

A word becomes stretches of text. What comes of a parameter or a command outside of quotes is split at
blanks, and what stands outside of quotes is matched against the names of files.
-/

namespace Assay.Shell

open Sandbox Files

/-- A stretch of an expanded word. -/
inductive Stretch where
  | fixed (quoted : Bool) (s : String)
  /-- It is split at blanks. -/
  | loose (s : String)
  /-- Another field begins. -/
  | gap
deriving Repr

/-- A field: its parts, quoted or not. -/
abbrev Field := List (Bool × String)

/-- The text of a field. -/
def Field.text (f : Field) : String := String.join (f.map (·.2))

/-- The text of stretches that are not split. -/
def joined (ss : List Stretch) : String :=
  String.join (ss.map fun
    | .fixed _ s => s
    | .loose s => s
    | .gap => " ")

/-- The pattern that stretches make up. -/
def matchersOf (ss : List Stretch) : List Matcher :=
  (ss.map fun
    | .fixed quoted s => Matcher.ofText quoted s
    | .loose s => Matcher.ofText false s
    | .gap => [.one ' ']).flatten

/-- Fields that have been completed, and the one at hand if there is one. -/
structure Fields where
  complete : List Field := []
  current : Option Field := none

namespace Fields

/-- The field at hand is complete. -/
def close (f : Fields) : Fields :=
  match f.current with
  | some field => { complete := f.complete ++ [field] }
  | none => f

/-- A part is added to the field at hand. -/
def add (quoted : Bool) (s : String) (f : Fields) : Fields :=
  if s.isEmpty && !quoted then f
  else { f with current := some (f.current.getD [] ++ [(quoted, s)]) }

/-- The field at hand is complete, an empty one if there is none. -/
def cut (f : Fields) : Fields := { complete := f.complete ++ [f.current.getD []] }

/-- A text is added whose parts between separators are fields of their own. Blanks separate in any
number; between two other separators there is an empty field. -/
def addSplit (isSeparator isBlank : Char → Bool) : (fuel : Nat) → List Char → Fields → Fields
  | 0, _, f => f
  | _ + 1, [], f => f
  | fuel + 1, c :: cs, f =>
    if isBlank c then
      match (c :: cs).dropWhile isBlank with
      | d :: ds => if isSeparator d then addSplit isSeparator isBlank fuel (d :: ds) f
        else addSplit isSeparator isBlank fuel (d :: ds) f.close
      | [] => f.close
    else if isSeparator c then addSplit isSeparator isBlank fuel (cs.dropWhile isBlank) f.cut
    else
      let run := (c :: cs).takeWhile fun d => !isSeparator d && !isBlank d
      addSplit isSeparator isBlank fuel ((c :: cs).drop run.length) (f.add false (String.ofList run))

/-- The fields that stretches make up. -/
def ofStretches (separators : List Char) (ss : List Stretch) : List Field :=
  let isBlank := fun c => separators.contains c && [' ', '\t', '\n'].contains c
  let isSeparator := fun c => separators.contains c && !isBlank c
  let f := ss.foldl (fun f => fun
    | .fixed quoted s => f.add quoted s
    | .loose s => addSplit isSeparator isBlank (s.length + 1) s.toList f
    | .gap => f.close) ({} : Fields)
  f.close.complete

end Fields

/-! ## Names of files -/

/-- The field has a character outside of quotes that stands for others. -/
def Field.isPattern (f : Field) : Bool :=
  f.any fun (quoted, s) => !quoted && s.toList.any fun c => ['*', '?', '['].contains c

/-- A field cut at its slashes. -/
def Field.segments (f : Field) : List Field :=
  f.foldl (fun segments (quoted, s) =>
    match Text.splitOn '/' s with
    | [] => segments
    | first :: more =>
      let last := (segments.getLast?.getD []) ++ [(quoted, first)]
      segments.dropLast ++ last :: more.map fun part => [(quoted, part)]) [[]]

/-- The paths that match the segments of a field below a path. -/
def matchingFrom (t : Tree) (before : String) : List Field → List String
  | [] => [before]
  | [segment] => (namesMatching segment).map fun name => before ++ name
  | segment :: rest =>
    if segment.isPattern then
      ((namesMatching segment).map fun name => matchingFrom t (before ++ name ++ "/") rest).flatten
    else matchingFrom t (before ++ Field.text segment ++ "/") rest
where
  namesMatching (segment : Field) : List String :=
    let ms := (segment.map fun (quoted, s) => Matcher.ofText quoted s).flatten
    let isHidden := Text.hasStart "." (Field.text segment)
    let directory := if before.isEmpty then "." else before
    (namesIn t (Path.ofString directory)).filter fun name =>
      (isHidden || !Text.hasStart "." name) && Matcher.matchesAll ms name.toList

/-- The texts that a field stands for: the files that it matches, or itself. -/
def Field.texts (t : Tree) (f : Field) : List String :=
  if f.isPattern then
    match matchingFrom t "" f.segments with
    | [] => [f.text]
    | found => found
  else [f.text]

/-! ## Expansion -/

/-- The line at which words are expanded, and how commands in them are run. -/
structure Expander where
  line : Nat
  substitute : String → Action Bytes

/-- The text without the ends of lines at its end. -/
def withoutFinalFeeds (s : String) : String :=
  String.ofList (s.toList.reverse.dropWhile (· == '\n')).reverse

/-- A value, which is split unless it stands in quotes. -/
def valueStretch (quoted : Bool) (s : String) : List Stretch := [if quoted then .fixed true s else .loose s]

/-- Stretches that make a field even if there is nothing in them, if they stand in quotes. -/
def heldIn (quoted : Bool) (ss : List Stretch) : List Stretch :=
  if quoted then .fixed true "" :: ss else ss

/-- All arguments, each of which is a field of its own. -/
def argumentStretches (quoted : Bool) (arguments : List String) : List Stretch :=
  (List.intersperse [Stretch.gap] (arguments.map (valueStretch quoted))).flatten

/-- The value of a parameter, which may have to have one. -/
def parameterValue (e : Expander) (name : String) : Action String := do
  let s ← get
  match s.value? name with
  | some v => return v
  | none =>
    if s.needsValues && !(["@", "*", "!"].contains name) then
      Action.complain e.line (name ++ ": parameter not set")
      Action.leave 2
    return ""

/-- The stretches that pieces become; pieces stand in each other to the given depth. -/
def stretches (e : Expander) : (depth : Nat) → List Piece → Action (List Stretch)
  | 0, _ => return []
  | _ + 1, [] => return []
  | depth + 1, piece :: rest => do
    let found ← match piece with
      | .text quoted s => pure [Stretch.fixed quoted s]
      | .parameter quoted "@" => pure (argumentStretches quoted (← get).arguments)
      | .parameter false "*" => pure (argumentStretches false (← get).arguments)
      | .parameter true "*" => pure [Stretch.fixed true (spaced (← get).arguments)]
      | .parameter quoted name => pure (valueStretch quoted (← parameterValue e name))
      | .measure quoted name =>
        pure (valueStretch quoted (Decimal.natText (← parameterValue e name).length))
      | .substitution quoted script => do
        let output ← e.substitute script
        pure (valueStretch quoted (withoutFinalFeeds (textOf output)))
      | .arithmetic quoted expression => do
        let text := joined (← stretches e depth expression)
        let s ← get
        match Arithmetic.evaluate (fun name => (s.value? name).getD "") text with
        | some n => pure (valueStretch quoted (Decimal.intText n))
        | none => do
          Action.complain e.line "arithmetic expression: expecting primary"
          Action.leave 2
      | .ruled quoted name rule orEmpty argument => do
        let value := (← get).value? name
        let isThere := match value with
          | some v => !(orEmpty && v.isEmpty)
          | none => false
        match rule with
        | .default =>
          if isThere then pure (valueStretch quoted (value.getD ""))
          else pure (heldIn quoted (← stretches e depth argument))
        | .assign =>
          if isThere then pure (valueStretch quoted (value.getD ""))
          else do
            let text := joined (← stretches e depth argument)
            modify (State.assign name text)
            pure (valueStretch quoted text)
        | .alternative =>
          if isThere then pure (heldIn quoted (← stretches e depth argument)) else pure [.fixed quoted ""]
        | .require =>
          if isThere then pure (valueStretch quoted (value.getD ""))
          else do
            let text := joined (← stretches e depth argument)
            Action.complain e.line (name ++ ": " ++ (if text.isEmpty then "parameter not set" else text))
            Action.leave 2
        | .dropStart longest => do
          let ms := matchersOf (← stretches e depth argument)
          let v ← parameterValue e name
          pure (valueStretch quoted (String.ofList (Matcher.dropStart longest ms v.toList)))
        | .dropEnd longest => do
          let ms := matchersOf (← stretches e depth argument)
          let v ← parameterValue e name
          pure (valueStretch quoted (String.ofList (Matcher.dropEnd longest ms v.toList)))
    return found ++ (← stretches e depth rest)

/-- Pieces stand in each other, and after each other, to this number. -/
def maxPieces : Nat := 10000

/-- The stretches that a word becomes. -/
def wordStretches (e : Expander) (w : Word) : Action (List Stretch) := stretches e maxPieces w

/-- The text that a word becomes where it is not split. -/
def expandWhole (e : Expander) (w : Word) : Action String := return joined (← wordStretches e w)

/-- The texts that words become. -/
def expandWords (e : Expander) (ws : List Word) : Action (List String) := do
  let found ← ws.mapM fun w => do
    let ss ← wordStretches e w
    let s ← get
    let separators := (s.value? "IFS").getD " \t\n"
    let fields := Fields.ofStretches separators.toList ss
    return (fields.map (Field.texts s.tree)).flatten
  return found.flatten

end Assay.Shell

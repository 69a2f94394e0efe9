import Assay.Text.Split

/-!
# Scripts

The commands of a small shell: words with expansions, redirections, and the ways to combine commands.
The text of a substituted command is kept as it stands, and is read when it is run.
-/

namespace Assay.Shell

/-- What is done with a parameter as it is expanded. -/
inductive ParameterRule where
  /-- Another text stands in if there is no value. -/
  | default
  /-- Another text stands in, and becomes the value, if there is none. -/
  | assign
  /-- It is an error if there is no value. -/
  | require
  /-- Another text stands in if there is a value. -/
  | alternative
  /-- The start of the value that matches a pattern is left out. -/
  | dropStart (longest : Bool)
  /-- The end of the value that matches a pattern is left out. -/
  | dropEnd (longest : Bool)
deriving Repr, DecidableEq

/-- The pieces that a word is made of. A quoted piece is neither split nor matched. -/
inductive Piece where
  | text (quoted : Bool) (s : String)
  | parameter (quoted : Bool) (name : String)
  | measure (quoted : Bool) (name : String)
  /-- A parameter under a rule. If `orEmpty` is set, an empty value counts as none. -/
  | ruled (quoted : Bool) (name : String) (rule : ParameterRule) (orEmpty : Bool)
    (argument : List Piece)
  | substitution (quoted : Bool) (script : String)
  | arithmetic (quoted : Bool) (expression : List Piece)
deriving Repr, Inhabited

/-- A word. -/
abbrev Word := List Piece

/-- Where a redirection leads. -/
inductive Target where
  | read (path : Word)
  | write (path : Word)
  | append (path : Word)
  /-- The same place as another descriptor. -/
  | copy (descriptor : Nat)
  | close
  /-- A text that stands in the script. -/
  | here (text : Word)
deriving Repr, Inhabited

/-- A redirection of a descriptor. -/
structure Redirection where
  descriptor : Nat
  target : Target
deriving Repr, Inhabited

/-- A command. -/
inductive Command where
  /-- Assignments, and a command with its arguments; the line is counted from one. -/
  | simple (line : Nat) (assignments : List (String × Word)) (words : List Word)
  | redirected (body : Command) (redirections : List Redirection)
  | pipeline (stages : List Command)
  | negated (body : Command)
  | both (first second : Command)
  | either (first second : Command)
  | sequence (first second : Command)
  | background (body : Command)
  | subshell (body : Command)
  | branch (condition yes no : Command)
  /-- Runs the body as long as the condition ends well, or as long as it does not. -/
  | loop (untilGood : Bool) (condition body : Command)
  /-- Runs the body for every word; for every argument if there are no words. -/
  | each (name : String) (words : Option (List Word)) (body : Command)
  | choose (subject : Word) (arms : List (List Word × Command))
  | define (name : String) (body : Command)
  | skip
deriving Repr, Inhabited

/-- Commands one after another. -/
def Command.inOrder : List Command → Command
  | [] => .skip
  | [c] => c
  | c :: cs => .sequence c (inOrder cs)

end Assay.Shell

import Assay.Shell.Script

/-!
# Reading scripts

A script is read command by command, so that what stands before a mistake can still be run. Words are
read into pieces; the text of a substituted command is only marked off.
-/

namespace Assay.Shell

/-- The outcome of reading a part of a script: the part and the text after it. -/
abbrev Read (α : Type) := Option (α × List Char)

/-! ## Words -/

/-- A character that may begin a name. -/
def beginsName (c : Char) : Bool := c.isAlpha || c == '_'

/-- A character that may stand in a name. -/
def isNameChar (c : Char) : Bool := c.isAlphanum || c == '_'

/-- The parameters that are named by one sign. -/
def isSpecialName (c : Char) : Bool := ['@', '*', '#', '?', '$', '!', '-'].contains c

/-- The characters that end a word. -/
def endsWord (c : Char) : Bool := [' ', '\t', '\n', '|', '&', ';', '<', '>', '(', ')'].contains c

/-- The characters that do not stand for themselves in every word. -/
def isMark (c : Char) : Bool := ['\\', '\'', '"', '$', '\x60'].contains c

/-- How a run of pieces is read: within double quotes or not, up to which character, and which
characters a backslash takes the meaning from. -/
structure Mode where
  quoted : Bool := false
  ends : Char → Bool := endsWord
  escaped : Char → Bool := fun _ => true

/-- Within double quotes. -/
def Mode.doubleQuotes : Mode where
  quoted := true
  ends c := c == '"'
  escaped c := ['$', '\x60', '"', '\\'].contains c

/-- In a text that stands in the script. -/
def Mode.hereText : Mode where
  quoted := true
  ends _ := false
  escaped c := ['$', '\x60', '\\'].contains c

/-- In the argument of a rule for a parameter. -/
def Mode.argument (quoted : Bool) : Mode where
  quoted
  ends c := c == '}'
  escaped c := !quoted || ['$', '\x60', '"', '\\', '}'].contains c

/-- The text up to the bracket that closes, and the text after it. Brackets in quotes do not count. -/
def upToBracket : (depth : Nat) → (quote : Option Char) → (acc : List Char) → List Char → Read (List Char)
  | _, _, _, [] => none
  | depth, quote, acc, c :: rest =>
    match quote, c, rest with
    | some '\'', '\'', rest => upToBracket depth none (c :: acc) rest
    | some '\'', _, rest => upToBracket depth quote (c :: acc) rest
    | _, '\\', d :: rest => upToBracket depth quote (d :: '\\' :: acc) rest
    | some _, '"', rest => upToBracket depth none (c :: acc) rest
    | some _, _, rest => upToBracket depth quote (c :: acc) rest
    | none, '(', rest => upToBracket (depth + 1) none (c :: acc) rest
    | none, ')', rest =>
      match depth with
      | 0 => some (acc.reverse, rest)
      | depth + 1 => upToBracket depth none (c :: acc) rest
    | none, _, rest =>
      upToBracket depth (if c == '\'' || c == '"' then some c else none) (c :: acc) rest

/-- The text up to the closing backquote, with its escapes resolved, and the text after it. Within
double quotes a double quote is escaped as well. -/
def upToBackquote (quoted : Bool) (acc : List Char) : List Char → Read (List Char)
  | [] => none
  | '\x60' :: rest => some (acc.reverse, rest)
  | '\\' :: c :: rest =>
    if ['\x60', '\\', '$'].contains c || (quoted && c == '"') then upToBackquote quoted (c :: acc) rest
    else upToBackquote quoted (c :: '\\' :: acc) rest
  | c :: rest => upToBackquote quoted (c :: acc) rest

/-- The name of a parameter. -/
def parameterName : List Char → Read String
  | c :: rest =>
    if beginsName c then
      let more := rest.takeWhile isNameChar
      some (String.ofList (c :: more), rest.drop more.length)
    else if c.isDigit then
      let more := rest.takeWhile Char.isDigit
      some (String.ofList (c :: more), rest.drop more.length)
    else if isSpecialName c then some (String.ofList [c], rest)
    else none
  | [] => none

/-- The rule after the name of a parameter. -/
def parameterRule : List Char → Read (ParameterRule × Bool)
  | ':' :: '-' :: rest => some ((.default, true), rest)
  | ':' :: '=' :: rest => some ((.assign, true), rest)
  | ':' :: '?' :: rest => some ((.require, true), rest)
  | ':' :: '+' :: rest => some ((.alternative, true), rest)
  | '-' :: rest => some ((.default, false), rest)
  | '=' :: rest => some ((.assign, false), rest)
  | '?' :: rest => some ((.require, false), rest)
  | '+' :: rest => some ((.alternative, false), rest)
  | '#' :: '#' :: rest => some ((.dropStart true, false), rest)
  | '#' :: rest => some ((.dropStart false, false), rest)
  | '%' :: '%' :: rest => some ((.dropEnd true, false), rest)
  | '%' :: rest => some ((.dropEnd false, false), rest)
  | _ => none

/-- The pattern of a rule is read as if it stood in no quotes. -/
def ParameterRule.takesPattern : ParameterRule → Bool
  | dropStart _ | dropEnd _ => true
  | _ => false

/-- A parameter between braces, its opening brace being read; `pieces` reads the argument of a rule. -/
def bracedParameter (pieces : Mode → List Char → Read Word) (quoted : Bool) (cs : List Char) : Read Piece :=
  let plain : Read Piece :=
    match parameterName cs with
    | none => none
    | some (name, '}' :: rest) => some (.parameter quoted name, rest)
    | some (name, rest) =>
      match parameterRule rest with
      | none => none
      | some ((rule, orEmpty), rest) =>
        match pieces (Mode.argument (quoted && !rule.takesPattern)) rest with
        | some (argument, '}' :: rest) => some (.ruled quoted name rule orEmpty argument, rest)
        | _ => none
  match cs with
  | '#' :: rest =>
    match parameterName rest with
    | some (name, '}' :: after) => some (.measure quoted name, after)
    | _ => plain
  | _ => plain

/-- What follows a dollar sign. -/
def expansion (pieces : Mode → List Char → Read Word) (quoted : Bool) : List Char → Read Piece
  | '(' :: '(' :: rest =>
    match upToBracket 1 none [] rest with
    | some (inside, after) =>
      match pieces Mode.hereText inside.dropLast with
      | some (expression, _) => some (.arithmetic quoted expression, after)
      | none => none
    | none => none
  | '(' :: rest =>
    (upToBracket 0 none [] rest).map fun (inside, after) =>
      (.substitution quoted (String.ofList inside), after)
  | '{' :: rest => bracedParameter pieces quoted rest
  | c :: rest =>
    if beginsName c then
      (parameterName (c :: rest)).map fun (name, after) => (.parameter quoted name, after)
    else if c.isDigit || isSpecialName c then some (.parameter quoted (String.ofList [c]), rest)
    else some (.text quoted "$", c :: rest)
  | [] => some (.text quoted "$", [])

/-- The pieces up to the character that ends them. -/
def pieces : (fuel : Nat) → Mode → List Char → Read Word
  | 0, _, _ => none
  | _ + 1, _, [] => some ([], [])
  | fuel + 1, mode, c :: rest =>
    let go := fun (found : Word) (after : List Char) =>
      (pieces fuel mode after).map fun (more, after) => (found ++ more, after)
    if mode.ends c then some ([], c :: rest)
    else match c, rest with
      | '\\', '\n' :: rest => go [] rest
      | '\\', d :: rest =>
        go [.text true (if mode.escaped d then String.ofList [d] else String.ofList ['\\', d])] rest
      | '\\', [] => go [.text true "\\"] []
      | '$', rest =>
        match expansion (pieces fuel) mode.quoted rest with
        | some (piece, after) => go [piece] after
        | none => none
      | '\x60', rest =>
        match upToBackquote mode.quoted [] rest with
        | some (inside, after) => go [.substitution mode.quoted (String.ofList inside)] after
        | none => none
      | c, rest =>
        if c == '\'' && !mode.quoted then
          let inside := rest.takeWhile (· != '\'')
          match rest.drop inside.length with
          | _ :: after => go [.text true (String.ofList inside)] after
          | [] => none
        else if c == '"' && !mode.quoted then
          match pieces fuel Mode.doubleQuotes rest with
          | some (inside, _ :: after) => go (if inside.isEmpty then [.text true ""] else inside) after
          | _ => none
        else
          let run := rest.takeWhile fun d => !mode.ends d && !isMark d
          go [.text mode.quoted (String.ofList (c :: run))] (rest.drop run.length)

/-- The pieces of a text that stands in the script. -/
def hereWord (s : List Char) : Option Word := (pieces (s.length + 1) Mode.hereText s).map (·.1)

/-- A word, which is not empty. -/
def word (cs : List Char) : Read Word :=
  match pieces (cs.length + 1) {} cs with
  | some ([], _) => none
  | found => found

/-! ## Blanks -/

/-- The text after blanks and joined lines. -/
def skipBlanks : List Char → List Char
  | ' ' :: rest => skipBlanks rest
  | '\t' :: rest => skipBlanks rest
  | '\\' :: '\n' :: rest => skipBlanks rest
  | cs => cs

/-- The text after blanks and after a comment, up to the end of the line. -/
def skipRemark (cs : List Char) : List Char :=
  match skipBlanks cs with
  | '#' :: rest => rest.dropWhile (· != '\n')
  | cs => cs

/-- The text after blanks, comments and ends of lines. -/
def skipLines : (fuel : Nat) → List Char → List Char
  | 0, cs => cs
  | fuel + 1, cs =>
    match skipRemark cs with
    | '\n' :: rest => skipLines fuel rest
    | cs => cs

/-- The text after blanks, comments and ends of lines. -/
def toNextCommand (cs : List Char) : List Char := skipLines (cs.length + 1) cs

/-- The plain word at the start of a text; empty if it does not end as a word does. -/
def plainWord (cs : List Char) : String :=
  String.ofList (cs.takeWhile fun c => !endsWord c && !isMark c)

/-- The text after a reserved word, if it comes next. -/
def reserved (name : String) (cs : List Char) : Option (List Char) :=
  let cs := toNextCommand cs
  if plainWord cs == name then some (cs.drop name.length) else none

/-- The reserved words that close a part of a command. -/
def closers : List String := ["then", "else", "elif", "fi", "do", "done", "esac", "\x7d"]

/-- No command begins here: the text or a part of a command ends. -/
def isClosed (cs : List Char) : Bool :=
  match cs with
  | [] => true
  | ')' :: _ => true
  | ';' :: ';' :: _ => true
  | cs => closers.contains (plainWord cs)

/-! ## Redirections -/

/-- The lines of a text up to a line that says where it ends, and the text after that line. -/
def hereLines (dropTabs : Bool) (ending : List Char) :
    (fuel : Nat) → (acc : List Char) → List Char → List Char × List Char
  | 0, acc, cs => (acc, cs)
  | _ + 1, acc, [] => (acc, [])
  | fuel + 1, acc, cs =>
    let line := cs.takeWhile (· != '\n')
    let after := cs.drop (line.length + 1)
    let line := if dropTabs then line.dropWhile (· == '\t') else line
    if line == ending then (acc, after)
    else hereLines dropTabs ending fuel (acc ++ line ++ ['\n']) after

/-- The letters of a word whatever their quotes, and whether there are quotes. -/
def Word.letters (w : Word) : List Char × Bool :=
  w.foldl (fun (cs, quoted) piece => match piece with
    | .text q s => (cs ++ s.toList, quoted || q)
    | _ => (cs, quoted)) ([], false)

/-- A text that stands in the script behind the line in which it is announced. -/
def hereTarget (dropTabs : Bool) (cs : List Char) : Read Target :=
  match word (skipBlanks cs) with
  | none => none
  | some (w, rest) =>
    let (ending, quoted) := Word.letters w
    let line := rest.takeWhile (· != '\n')
    let (body, after) := hereLines dropTabs ending (rest.length + 1) [] (rest.drop (line.length + 1))
    let text := if quoted then some [Piece.text true (String.ofList body)] else hereWord body
    text.map fun text => (.here text, line ++ '\n' :: after)

/-- A redirection to or from a file. -/
def fileTarget (f : Word → Target) (cs : List Char) : Read Target :=
  (word (skipBlanks cs)).map fun (w, after) => (f w, after)

/-- A redirection to the place of another descriptor. -/
def copyTarget (cs : List Char) : Read Target :=
  match skipBlanks cs with
  | '-' :: rest => some (.close, rest)
  | c :: rest => if c.isDigit then some (.copy (c.toNat - '0'.toNat), rest) else none
  | [] => none

/-- What follows the descriptor of a redirection. -/
def target : List Char → Read (Nat × Target)
  | '<' :: '<' :: '-' :: rest => (hereTarget true rest).map fun (t, after) => ((0, t), after)
  | '<' :: '<' :: rest => (hereTarget false rest).map fun (t, after) => ((0, t), after)
  | '<' :: '&' :: rest => (copyTarget rest).map fun (t, after) => ((0, t), after)
  | '<' :: rest => (fileTarget .read rest).map fun (t, after) => ((0, t), after)
  | '>' :: '>' :: rest => (fileTarget .append rest).map fun (t, after) => ((1, t), after)
  | '>' :: '&' :: rest => (copyTarget rest).map fun (t, after) => ((1, t), after)
  | '>' :: '|' :: rest => (fileTarget .write rest).map fun (t, after) => ((1, t), after)
  | '>' :: rest => (fileTarget .write rest).map fun (t, after) => ((1, t), after)
  | _ => none

/-- A redirection begins here. -/
def beginsRedirection (cs : List Char) : Bool :=
  match cs.dropWhile Char.isDigit with
  | '<' :: _ | '>' :: _ => (cs.takeWhile Char.isDigit).length ≤ 1
  | _ => false

/-- A redirection. -/
def redirection : List Char → Read Redirection
  | c :: rest =>
    if c.isDigit then
      (target rest).map fun ((_, t), after) => (⟨c.toNat - '0'.toNat, t⟩, after)
    else (target (c :: rest)).map fun ((descriptor, t), after) => (⟨descriptor, t⟩, after)
  | [] => none

/-- The redirections that follow a command. -/
def redirections : (fuel : Nat) → List Char → Read (List Redirection)
  | 0, _ => none
  | fuel + 1, cs =>
    let cs := skipBlanks cs
    if beginsRedirection cs then
      match redirection cs with
      | some (r, after) => (redirections fuel after).map fun (rs, after) => (r :: rs, after)
      | none => none
    else some ([], cs)

/-- The command with redirections, if there are any. -/
def Command.withRedirections (c : Command) : List Redirection → Command
  | [] => c
  | rs => .redirected c rs

/-! ## Commands -/

/-- What has been read of a simple command. -/
structure Simple where
  assignments : List (String × Word) := []
  words : List Word := []
  redirections : List Redirection := []

/-- The name before an equals sign at the start of a text, and the text after the sign. -/
def assignedName : List Char → Read String
  | c :: rest =>
    if beginsName c then
      let more := rest.takeWhile isNameChar
      match rest.drop more.length with
      | '=' :: after => some (String.ofList (c :: more), after)
      | _ => none
    else none
  | [] => none

/-- A simple command from some part on. -/
def simpleFrom : (fuel : Nat) → Simple → List Char → Read Simple
  | 0, _, _ => none
  | fuel + 1, found, cs =>
    let cs := skipBlanks cs
    if beginsRedirection cs then
      match redirection cs with
      | some (r, after) =>
        simpleFrom fuel { found with redirections := found.redirections ++ [r] } after
      | none => none
    else match cs with
      | [] => some (found, [])
      | '#' :: _ => some (found, skipRemark cs)
      | c :: _ =>
        if endsWord c then some (found, cs)
        else
          match (if found.words.isEmpty then assignedName cs else none) with
          | some (name, after) =>
            match pieces (after.length + 1) {} after with
            | some (value, after) =>
              simpleFrom fuel { found with assignments := found.assignments ++ [(name, value)] } after
            | none => none
          | none =>
            match word cs with
            | some (w, after) => simpleFrom fuel { found with words := found.words ++ [w] } after
            | none => none

/-- A simple command; `lines` is the number of lines of the script. -/
def simple (lines : Nat) (cs : List Char) : Read Command :=
  match simpleFrom (cs.length + 1) {} cs with
  | some (found, after) =>
    if found.words.isEmpty && found.assignments.isEmpty && found.redirections.isEmpty then none
    else
      let line := lines - cs.count '\n'
      some ((Command.simple line found.assignments found.words).withRedirections found.redirections, after)
  | none => none

/-- The words up to the end of a list of words. -/
def wordsFrom : (fuel : Nat) → List Char → Read (List Word)
  | 0, _ => none
  | fuel + 1, cs =>
    match skipRemark cs with
    | [] => some ([], [])
    | c :: rest =>
      if endsWord c then some ([], c :: rest)
      else match word (c :: rest) with
        | some (w, after) => (wordsFrom fuel after).map fun (ws, after) => (w :: ws, after)
        | none => none

/-- The patterns of an arm, up to the bracket behind them. -/
def patternsFrom : (fuel : Nat) → List Char → Read (List Word)
  | 0, _ => none
  | fuel + 1, cs =>
    match word (skipBlanks cs) with
    | none => none
    | some (w, after) =>
      match skipBlanks after with
      | '|' :: rest => (patternsFrom fuel rest).map fun (ws, after) => (w :: ws, after)
      | ')' :: rest => some ([w], rest)
      | _ => none

/-- The name of a function that is defined here, and the text after its brackets. -/
def definedName (cs : List Char) : Read String :=
  let name := plainWord cs
  match name.toList, skipBlanks (cs.drop name.length) with
  | c :: _, '(' :: rest =>
    match skipBlanks rest with
    | ')' :: after => if beginsName c then some (name, toNextCommand after) else none
    | _ => none
  | _, _ => none

/-- Joins two parts of a command. -/
inductive Joint where
  | both
  | either

/-- The sign between two commands of which the second depends on the first. -/
def joint : List Char → Option (Joint × List Char)
  | '&' :: '&' :: rest => some (.both, rest)
  | '|' :: '|' :: rest => some (.either, rest)
  | _ => none

section Grammar

variable (lines : Nat)

/-- The stages of a pipeline from one on; `command` reads a stage. -/
def stagesFrom (command : List Char → Read Command) : (fuel : Nat) → List Char → Read (List Command)
  | 0, _ => none
  | fuel + 1, cs =>
    match command (skipBlanks cs) with
    | none => none
    | some (c, after) =>
      match skipBlanks after with
      | '|' :: '|' :: rest => some ([c], '|' :: '|' :: rest)
      | '|' :: rest =>
        (stagesFrom command fuel (toNextCommand rest)).map fun (cs, after) => (c :: cs, after)
      | rest => some ([c], rest)

/-- A pipeline. -/
def pipeline (command : List Char → Read Command) (cs : List Char) : Read Command :=
  let cs := skipBlanks cs
  let (negated, cs) := if plainWord cs == "!" then (true, cs.drop 1) else (false, cs)
  (stagesFrom command (cs.length + 1) cs).map fun (stages, after) =>
    let c := match stages with
      | [c] => c
      | cs => .pipeline cs
    (if negated then .negated c else c, after)

/-- Commands that depend on each other, after the first of them. -/
def jointsFrom (command : List Char → Read Command) :
    (fuel : Nat) → Command → List Char → Read Command
  | 0, _, _ => none
  | fuel + 1, first, cs =>
    match joint (skipBlanks cs) with
    | none => some (first, cs)
    | some (j, rest) =>
      match pipeline command (toNextCommand rest) with
      | none => none
      | some (second, after) =>
        jointsFrom command fuel (match j with
          | .both => .both first second
          | .either => .either first second) after

/-- Commands that depend on each other, with whether a line ends behind them. The sign that separates
them from the next ones is read as well. -/
def statement (command : List Char → Read Command) (cs : List Char) : Read (Command × Bool) :=
  match pipeline command cs with
  | none => none
  | some (first, after) =>
    match jointsFrom command (after.length + 1) first after with
    | none => none
    | some (c, after) =>
      match skipRemark after with
      | ';' :: ';' :: rest => some ((c, false), ';' :: ';' :: rest)
      | ';' :: rest => some ((c, false), rest)
      | '&' :: rest => some ((.background c, false), rest)
      | '\n' :: rest => some ((c, true), rest)
      | rest => if isClosed rest then some ((c, rest.isEmpty), rest) else none

/-- Statements up to where a part of a command is closed. -/
def statements (command : List Char → Read Command) :
    (fuel : Nat) → List Char → Read (List Command)
  | 0, _ => none
  | fuel + 1, cs =>
    let cs := toNextCommand cs
    if isClosed cs then some ([], cs)
    else match statement command cs with
      | none => none
      | some ((c, _), after) => (statements command fuel after).map fun (cs, after) => (c :: cs, after)

/-- The statements of a part of a command, of which there is at least one. -/
def body (command : List Char → Read Command) (cs : List Char) : Read Command :=
  match statements command (cs.length + 1) cs with
  | some (c :: cs, after) => some (Command.inOrder (c :: cs), after)
  | _ => none

/-- A part of a command and the reserved word behind it. -/
def bodyBefore (command : List Char → Read Command) (closer : String) (cs : List Char) : Read Command :=
  match body command cs with
  | none => none
  | some (c, after) => (reserved closer after).map fun after => (c, after)

/-- A choice by conditions, its first word being read. -/
def branches (command : List Char → Read Command) : (fuel : Nat) → List Char → Read Command
  | 0, _ => none
  | fuel + 1, cs =>
    match bodyBefore command "then" cs with
    | none => none
    | some (condition, rest) =>
      match body command rest with
      | none => none
      | some (yes, rest) =>
        match reserved "elif" rest, reserved "else" rest, reserved "fi" rest with
        | some rest, _, _ =>
          (branches command fuel rest).map fun (no, after) => (.branch condition yes no, after)
        | _, some rest, _ =>
          (bodyBefore command "fi" rest).map fun (no, after) => (.branch condition yes no, after)
        | _, _, some rest => some (.branch condition yes .skip, rest)
        | _, _, _ => none

/-- A loop under a condition, its first word being read. -/
def conditionalLoop (command : List Char → Read Command) (untilGood : Bool) (cs : List Char) :
    Read Command :=
  match bodyBefore command "do" cs with
  | none => none
  | some (condition, rest) =>
    (bodyBefore command "done" rest).map fun (c, after) => (.loop untilGood condition c, after)

/-- A loop over words, its first word being read. -/
def wordLoop (command : List Char → Read Command) (cs : List Char) : Read Command :=
  match parameterName (skipBlanks cs) with
  | none => none
  | some (name, rest) =>
    let (words, rest) : Option (List Word) × List Char := match reserved "in" rest with
      | some after =>
        match wordsFrom (after.length + 1) after with
        | some (ws, after) => (some ws, after)
        | none => (some [], [])
      | none => (none, rest)
    let rest := match skipBlanks rest with
      | ';' :: after => after
      | rest => rest
    match reserved "do" rest with
    | none => none
    | some rest => (bodyBefore command "done" rest).map fun (c, after) => (.each name words c, after)

/-- The arms of a choice by patterns. -/
def arms (command : List Char → Read Command) :
    (fuel : Nat) → List Char → Read (List (List Word × Command))
  | 0, _ => none
  | fuel + 1, cs =>
    match reserved "esac" cs with
    | some after => some ([], after)
    | none =>
      let cs := match toNextCommand cs with
        | '(' :: rest => rest
        | cs => cs
      match patternsFrom (cs.length + 1) cs with
      | none => none
      | some (patterns, rest) =>
        match statements command (rest.length + 1) rest with
        | none => none
        | some (found, rest) =>
          let arm := (patterns, Command.inOrder found)
          match toNextCommand rest with
          | ';' :: ';' :: rest => (arms command fuel rest).map fun (as, after) => (arm :: as, after)
          | rest => (reserved "esac" rest).map fun after => ([arm], after)

/-- A choice by patterns, its first word being read. -/
def patternChoice (command : List Char → Read Command) (cs : List Char) : Read Command :=
  match word (skipBlanks cs) with
  | none => none
  | some (subject, rest) =>
    match reserved "in" rest with
    | none => none
    | some rest => (arms command (rest.length + 1) rest).map fun (as, after) => (.choose subject as, after)

/-- A command that holds others, if one begins here; `none` inside if it is not read to its end. -/
def compound? (command : List Char → Read Command) (cs : List Char) : Option (Read Command) :=
  match cs with
  | '(' :: rest =>
    some <| match body command rest with
      | some (c, after) =>
        match toNextCommand after with
        | ')' :: after => some (.subshell c, after)
        | _ => none
      | none => none
  | cs =>
    match plainWord cs with
    | "if" => some (branches command (cs.length + 1) (cs.drop 2))
    | "while" => some (conditionalLoop command false (cs.drop 5))
    | "until" => some (conditionalLoop command true (cs.drop 5))
    | "for" => some (wordLoop command (cs.drop 3))
    | "case" => some (patternChoice command (cs.drop 4))
    | "\x7b" => some (bodyBefore command "\x7d" (cs.drop 1))
    | _ => none

/-- A command; at most `depth` commands stand in each other. -/
def command : (depth : Nat) → List Char → Read Command
  | 0, _ => none
  | depth + 1, cs =>
    match compound? (command depth) cs with
    | some none => none
    | some (some (c, after)) =>
      (redirections (after.length + 1) after).map fun (rs, after) => (c.withRedirections rs, after)
    | none =>
      match definedName cs with
      | some (name, rest) => (command depth rest).map fun (c, after) => (.define name c, after)
      | none => if isClosed cs then none else simple lines cs

end Grammar

/-- Commands stand in each other to this depth. -/
def maxDepth : Nat := 100

/-- What has been read of a script: its commands up to the first mistake. -/
structure Script where
  commands : List Command
  isWhole : Bool
deriving Repr

/-- The statements of a script from one on. A line is read as a whole: `line` holds, in reverse, what
has been read of it, and is given up with it. -/
def scriptFrom (lines : Nat) : (fuel : Nat) → (line : List Command) → List Char → Script
  | 0, _, _ => ⟨[], false⟩
  | fuel + 1, line, cs =>
    match toNextCommand cs with
    | [] => ⟨line.reverse, true⟩
    | cs =>
      match statement (command lines maxDepth) cs with
      | none => ⟨[], false⟩
      | some ((c, endsLine), after) =>
        if endsLine then
          let rest := scriptFrom lines fuel [] after
          ⟨(c :: line).reverse ++ rest.commands, rest.isWhole⟩
        else scriptFrom lines fuel (c :: line) after

/-- The script that a text holds. -/
def Script.ofText (s : String) : Script :=
  let cs := s.toList
  scriptFrom (cs.count '\n' + 1) (cs.length + 1) [] cs

end Assay.Shell

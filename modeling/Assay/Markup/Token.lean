import Assay.Markup.DocumentType

/-!
# Tokens of markup

A document is cut into tags, runs of text, references, comments, instructions and the declarations at
its head. `Token.scan?` fails where a piece of the document is no token at all; whether the tokens make
up a document is decided afterwards. What the head says is kept while the tags below it are read.
-/

namespace Assay.Markup

/-- A piece of a document. -/
inductive Token where
  | startTag (name : List Char) (attributes : List (List Char × List Char)) (closed : Bool)
  | endTag (name : List Char)
  /-- Text as it stands in the document. -/
  | text (cs : List Char)
  /-- Text that a reference or a literal section stands for. -/
  | literal (cs : List Char)
  | comment
  | instruction
  /-- The declaration at the head of a document, and whether it says that the document stands alone. -/
  | head (alone : Bool)
  /-- The declaration of the document's type, and all that is known after it. -/
  | doctype (known : Prologue)
deriving Repr, DecidableEq

namespace Token

/-- The attributes of a tag and its end: whether it closes itself. -/
def attributesFrom (lenient : Bool) : (fuel : Nat) → List (List Char × List Char) → List Char →
    Option (List (List Char × List Char) × Bool × List Char)
  | 0, _, _ => none
  | fuel + 1, acc, cs =>
    match skipSpace cs with
    | '>' :: rest => some (acc.reverse, false, rest)
    | '/' :: '>' :: rest => some (acc.reverse, true, rest)
    | inner =>
      if inner.length == cs.length then none
      else do
        let (key, rest) ← qualifiedName inner
        match skipSpace rest with
        | '=' :: rest =>
          let (inside, rest) ← quotedText (skipSpace rest)
          let value ← valueOf? lenient inside
          if acc.any fun a => a.1 == key then none
          else attributesFrom lenient fuel ((key, value) :: acc) rest
        | _ => none

/-- A start tag after its opening bracket. -/
def startTagFrom (known : Prologue) (cs : List Char) : Option (Token × List Char) := do
  let (key, rest) ← qualifiedName cs
  let (attributes, closed, rest) ← attributesFrom known.isLenient (rest.length + 1) [] rest
  return (.startTag key (known.complete key attributes) closed, rest)

/-- An end tag after its opening bracket and slash. -/
def endTagFrom (cs : List Char) : Option (Token × List Char) := do
  let (key, rest) ← qualifiedName cs
  match skipSpace rest with
  | '>' :: rest => return (.endTag key, rest)
  | _ => none

/-- A comment after its opening mark: two dashes end it. -/
def commentFrom (cs : List Char) : Option (Token × List Char) := do
  let (_, rest) ← upTo ['-', '-'] cs
  match rest with
  | '>' :: rest => return (.comment, rest)
  | _ => none

/-- The items of the declaration at the head: names with quoted values, in which nothing stands for
anything else. -/
def headItems : (fuel : Nat) → List Char → Option (List (List Char × List Char))
  | 0, _ => none
  | fuel + 1, cs =>
    match skipSpace cs with
    | [] => some []
    | inner =>
      if inner.length == cs.length then none
      else do
        let (key, rest) ← plainName inner
        match skipSpace rest with
        | '=' :: rest =>
          let (value, rest) ← quotedText (skipSpace rest)
          if value.all fun c => c.isAlphanum || c == '.' || c == '-' || c == '_' then
            return (key, value) :: (← headItems fuel rest)
          else none
        | _ => none

/-- Whether a document stands alone by the last items of the declaration at its head. -/
def aloneOf? : List (List Char × List Char) → Option Bool
  | [] => some false
  | [(key, value)] =>
    if key != "standalone".toList then none
    else if value == "yes".toList then some true
    else if value == "no".toList then some false
    else none
  | _ => none

/-- Whether a document stands alone by the declaration at its head, whose items are a version, then
possibly an encoding, then possibly that. -/
def headOf? : List (List Char × List Char) → Option Bool
  | (key, _) :: more =>
    if key != "version".toList then none
    else
      match more with
      | (second, value) :: rest =>
        if second == "encoding".toList then
          if (value.head?.map Char.isAlpha).getD false then aloneOf? rest else none
        else aloneOf? more
      | [] => some false
  | [] => none

/-- An instruction after its opening mark, or the declaration at the head if it has that name. -/
def instructionFrom (cs : List Char) : Option (Token × List Char) := do
  let (key, rest) ← plainName cs
  let (inside, after) ← upTo ['?', '>'] rest
  match inside with
  | [] => pure ()
  | c :: _ => if isSpace c then pure () else none
  if key == "xml".toList then return (.head (← headOf? (← headItems (inside.length + 1) inside)), after)
  else if key.map Char.toLower == "xml".toList then none
  else return (.instruction, after)

/-- The keyword of a declaration and a blank behind it. -/
def keywordFrom (cs : List Char) : Option (List Char × List Char) :=
  let key := cs.takeWhile Char.isUpper
  match cs.drop key.length with
  | c :: rest => if isSpace c then some (key, rest) else none
  | [] => none

/-- The inside of a document's type up to its closing bracket: the prologue after it, and what comes
behind. -/
def subsetFrom : (fuel : Nat) → Prologue → List Char → Option (Prologue × List Char)
  | 0, _, _ => none
  | fuel + 1, known, cs =>
    match skipSpace cs with
    | ']' :: rest => some (known, rest)
    | '<' :: '!' :: '-' :: '-' :: rest => do subsetFrom fuel known (← commentFrom rest).2
    | '<' :: '?' :: rest => do
      match ← instructionFrom rest with
      | (.instruction, after) => subsetFrom fuel known after
      | _ => none
    | '<' :: '!' :: rest => do
      let (key, rest) ← keywordFrom rest
      let (marks, _, after) ← Mark.readUntil ['>'] rest
      subsetFrom fuel (← DocumentType.withDeclaration known key marks) after
    | '%' :: rest => do
      let (_, after) ← plainName rest
      match after with
      | ';' :: after => subsetFrom fuel known.missOut after
      | _ => none
    | _ => none

/-- The declaration of the document's type after its opening mark. -/
def doctypeFrom (known : Prologue) (cs : List Char) : Option (Token × List Char) := do
  let (key, rest) ← keywordFrom cs
  if key != "DOCTYPE".toList then none
  let (marks, ending, rest) ← Mark.readUntil ['>', '['] rest
  let known ← DocumentType.withType known marks
  if ending == '>' then return (.doctype known, rest)
  let (known, rest) ← subsetFrom (rest.length + 1) known rest
  match skipSpace rest with
  | '>' :: rest => return (.doctype known, rest)
  | _ => none

/-- The token at the start of a text that is not empty. -/
def next (known : Prologue) : List Char → Option (Token × List Char)
  | '<' :: '!' :: '-' :: '-' :: rest => commentFrom rest
  | '<' :: '!' :: '[' :: 'C' :: 'D' :: 'A' :: 'T' :: 'A' :: '[' :: rest =>
    (upTo [']', ']', '>'] rest).map fun (cs, after) => (.literal cs, after)
  | '<' :: '!' :: rest => doctypeFrom known rest
  | '<' :: '?' :: rest => instructionFrom rest
  | '<' :: '/' :: rest => endTagFrom rest
  | '<' :: rest => startTagFrom known rest
  | '&' :: rest =>
    match reference rest with
    | some (.character c, after) => some (.literal [c], after)
    | _ => none
  | cs =>
    let run := cs.takeWhile fun c => c != '<' && c != '&'
    if Text.occursIn [']', ']', '>'] run then none
    else some (.text run, cs.drop run.length)

/-- What is known after a token. -/
def learn (known : Prologue) : Token → Prologue
  | .head alone => { known with alone }
  | .doctype after => after
  | _ => known

/-- The tokens of the rest of a document. -/
def scanFrom : (fuel : Nat) → Prologue → List Token → List Char → Option (List Token)
  | 0, _, _, _ => none
  | _ + 1, _, acc, [] => some acc.reverse
  | fuel + 1, known, acc, cs =>
    match next known cs with
    | some (token, rest) => scanFrom fuel (learn known token) (token :: acc) rest
    | none => none

/-- Every line ends in one line feed. -/
def unifyLines : List Char → List Char
  | '\r' :: '\n' :: rest => '\n' :: unifyLines rest
  | '\r' :: rest => '\n' :: unifyLines rest
  | c :: rest => c :: unifyLines rest
  | [] => []

/-- The tokens of a document; a byte-order mark at its start is skipped. -/
def scan? (cs : List Char) : Option (List Token) :=
  let cs := match cs with
    | '\ufeff' :: rest => rest
    | _ => cs
  if cs.all isAllowed then scanFrom (cs.length + 1) .start [] (unifyLines cs) else none

end Token

end Assay.Markup

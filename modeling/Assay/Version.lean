import Assay.Text.Classes
import Assay.Text.Blank
import Assay.Text.Split
import Assay.Decimal.Text
import Assay.Problem

/-!
# Versions

A version is an epoch, a release of numbers joined by dots, and optional marks: a pre-release, a post
release, a development release, and a local label. `Version.parse?` reads the whole syntax, in which
marks have several spellings and may be set off by a dash, a dot or an underscore; `Version.compare`
orders versions, a development release before its pre-releases, those before the release, post
releases after it.
-/

namespace Assay

/-- The stage of a pre-release. -/
inductive Stage where
  | alpha
  | beta
  | candidate
deriving Repr, DecidableEq

/-- The place of a stage before the release. -/
def Stage.rank : Stage → Nat
  | alpha => 0
  | beta => 1
  | candidate => 2

/-- A segment of a local label: a number, or a word. -/
inductive LocalPart where
  | word (s : String)
  | number (n : Nat)
deriving Repr, DecidableEq

/-- A version. -/
structure Version where
  epoch : Nat
  release : List Nat
  pre : Option (Stage × Nat)
  post : Option Nat
  dev : Option Nat
  localLabel : Option (List LocalPart)
deriving Repr, DecidableEq

namespace Version

/-! ## Reading

The syntax is ambiguous piece by piece, so each piece yields every way to read it, the longest first;
the whole is read by the first combination that uses up the text. -/

/-- All ways to read a piece at the start of a text. -/
abbrev Piece (α : Type) := List Char → List (α × List Char)

/-- A piece that may be missing. It is read where possible. -/
def optional {α : Type} (p : Piece α) : Piece (Option α) := fun cs =>
  (p cs).map (fun (a, rest) => (some a, rest)) ++ [(none, cs)]

/-- One of the three separators. -/
def separator : Piece Unit
  | c :: rest => if c == '-' || c == '_' || c == '.' then [((), rest)] else []
  | [] => []

/-- One given character. -/
def symbol (c : Char) : Piece Unit
  | d :: rest => if d == c then [((), rest)] else []
  | [] => []

/-- A word, regardless of case. -/
def word (w : String) : Piece Unit := fun cs =>
  if Text.startsWith w.toList ((cs.take w.length).map Char.toLower) then [((), cs.drop w.length)] else []

/-- The first of the words that begins the text decides; the others remain as further ways. -/
def oneOf {α : Type} (words : List (String × α)) : Piece α := fun cs =>
  words.flatMap fun (w, a) => (word w cs).map fun (_, rest) => (a, rest)

/-- A number of ASCII digits, all there are: nothing that may come after a number begins with a digit. -/
def number : Piece Nat := fun cs =>
  let ds := cs.takeWhile Decimal.isAsciiDigit
  if ds.isEmpty then [] else [(Decimal.natOf ds, cs.drop ds.length)]

/-- Further numbers of a release, each after a dot. -/
def moreNumbers : (fuel : Nat) → Piece (List Nat)
  | 0 => fun cs => [([], cs)]
  | fuel + 1 => fun cs =>
    ((symbol '.' cs).flatMap fun (_, r1) => (number r1).flatMap fun (n, r2) =>
      (moreNumbers fuel r2).map fun (ns, r3) => (n :: ns, r3)) ++ [([], cs)]

/-- The numbers of a release. -/
def releaseNumbers : Piece (List Nat) := fun cs =>
  (number cs).flatMap fun (n, r1) => (moreNumbers cs.length r1).map fun (ns, r2) => (n :: ns, r2)

/-- The epoch, before an exclamation mark. -/
def epochNumber : Piece Nat := fun cs =>
  (number cs).flatMap fun (n, r1) => (symbol '!' r1).map fun (_, r2) => (n, r2)

/-- A mark with one of the given words and an optional number, zero if it is missing. -/
def mark {α : Type} (words : List (String × α)) : Piece (α × Nat) := fun cs =>
  (optional separator cs).flatMap fun (_, r1) => (oneOf words r1).flatMap fun (a, r2) =>
    (optional separator r2).flatMap fun (_, r3) => (optional number r3).map fun (n, r4) =>
      ((a, n.getD 0), r4)

/-- The words of the pre-release stages, those that begin others after them. -/
def stageWords : List (String × Stage) :=
  [("alpha", .alpha), ("a", .alpha), ("beta", .beta), ("b", .beta), ("preview", .candidate),
    ("pre", .candidate), ("c", .candidate), ("rc", .candidate)]

/-- A post release: a dash and a number, or a mark. -/
def postNumber : Piece Nat := fun cs =>
  ((symbol '-' cs).flatMap fun (_, r1) => number r1) ++
    (mark [("post", ()), ("rev", ()), ("r", ())] cs).map fun ((_, n), rest) => (n, rest)

/-- A segment of a local label, up to the next separator. -/
def localPart : Piece LocalPart := fun cs =>
  let part := cs.takeWhile fun c => c.isAlphanum
  if part.isEmpty then []
  else if part.all Decimal.isAsciiDigit then [(.number (Decimal.natOf part), cs.drop part.length)]
  else [(.word (String.ofList (part.map Char.toLower)), cs.drop part.length)]

/-- Further segments of a local label, each after a separator. -/
def moreLocalParts : (fuel : Nat) → Piece (List LocalPart)
  | 0 => fun cs => [([], cs)]
  | fuel + 1 => fun cs =>
    ((separator cs).flatMap fun (_, r1) => (localPart r1).flatMap fun (p, r2) =>
      (moreLocalParts fuel r2).map fun (ps, r3) => (p :: ps, r3)) ++ [([], cs)]

/-- A local label, after a plus sign. -/
def localLabelParts : Piece (List LocalPart) := fun cs =>
  (symbol '+' cs).flatMap fun (_, r1) => (localPart r1).flatMap fun (p, r2) =>
    (moreLocalParts cs.length r2).map fun (ps, r3) => (p :: ps, r3)

/-- A version without the blanks around it. -/
def whole : Piece Version := fun cs =>
  (optional (word "v") cs).flatMap fun (_, r0) =>
    (optional epochNumber r0).flatMap fun (epoch, r1) =>
      (releaseNumbers r1).flatMap fun (release, r2) =>
        (optional (mark stageWords) r2).flatMap fun (pre, r3) =>
          (optional postNumber r3).flatMap fun (post, r4) =>
            (optional (mark [("dev", ())]) r4).flatMap fun (dev, r5) =>
              (optional localLabelParts r5).map fun (label, r6) =>
                (⟨epoch.getD 0, release, pre, post, dev.map (·.2), label⟩, r6)

/-- The version that a whole text denotes, blanks at its ends aside. -/
def parse? (s : String) : Option Version :=
  ((whole (Text.trim s.toList)).find? fun v => v.2.isEmpty).map (·.1)

/-! ## Numbers too long to be read

A text may have the form of a version and yet hold a number of more digits than are read. -/

/-- The runs of digits in a text. -/
def digitRuns : (run : List Char) → List Char → List (List Char)
  | run, [] => [run.reverse]
  | run, c :: cs =>
    if Decimal.isAsciiDigit c then digitRuns (c :: run) cs else run.reverse :: digitRuns [] cs

/-- The segments of a local label that are numbers. -/
def labelNumbers : (part : List Char) → List Char → List (List Char)
  | part, [] => if part.all Decimal.isAsciiDigit then [part.reverse] else []
  | part, c :: cs =>
    if c.isAlphanum then labelNumbers (c :: part) cs
    else if part.all Decimal.isAsciiDigit then part.reverse :: labelNumbers [] cs
    else labelNumbers [] cs

/-- The numerals of a text that has the form of a version, in order. -/
def numerals (cs : List Char) : List (List Char) :=
  match Text.cut '+' cs with
  | some (front, label) => digitRuns [] front ++ labelNumbers [] label
  | none => digitRuns [] cs

/-- The version that a whole text denotes, if it has the form of one. A number in it that is too long
cannot be read. -/
def read (s : String) : Except Breach (Option Version) :=
  match parse? s with
  | none => .ok none
  | some v =>
    match (numerals s.toList).find? fun ds => Decimal.maxWholeDigits < ds.length with
    | some ds => .error (.badValue (Decimal.tooManyDigits ds.length))
    | none => .ok (some v)

/-! ## Order -/

/-- The numbers of a release without the zeros at its end, which do not count. -/
def releaseKey (v : Version) : List Nat := (v.release.reverse.dropWhile (· == 0)).reverse

/-- Two rows compared item by item; a row that begins another comes first. -/
def compareRows {α : Type} (cmp : α → α → Ordering) : List α → List α → Ordering
  | [], [] => .eq
  | [], _ :: _ => .lt
  | _ :: _, [] => .gt
  | a :: as, b :: bs => (cmp a b).then (compareRows cmp as bs)

/-- The place among the pre-releases: a bare development release lies before all of them, a version
without a pre-release after all. -/
def preKey (v : Version) : List Nat :=
  match v.pre with
  | some (stage, n) => [1, stage.rank, n]
  | none => if v.post.isNone && v.dev.isSome then [0] else [2]

/-- The place among the post releases: none lies before all. -/
def postKey (v : Version) : List Nat :=
  match v.post with
  | some n => [1, n]
  | none => [0]

/-- The place among the development releases: none lies after all. -/
def devKey (v : Version) : List Nat :=
  match v.dev with
  | some n => [0, n]
  | none => [1]

/-- Two segments of local labels: words come before numbers. -/
def compareLocal : LocalPart → LocalPart → Ordering
  | .word a, .word b => compare a b
  | .word _, .number _ => .lt
  | .number _, .word _ => .gt
  | .number a, .number b => compare a b

/-- Two local labels: a version without one comes first. -/
def compareLabels : Option (List LocalPart) → Option (List LocalPart) → Ordering
  | none, none => .eq
  | none, some _ => .lt
  | some _, none => .gt
  | some a, some b => compareRows compareLocal a b

/-- The order of versions. -/
protected def compare (v w : Version) : Ordering :=
  (compare v.epoch w.epoch).then <|
  (compareRows compare v.releaseKey w.releaseKey).then <|
  (compareRows compare v.preKey w.preKey).then <|
  (compareRows compare v.postKey w.postKey).then <|
  (compareRows compare v.devKey w.devKey).then <|
  compareLabels v.localLabel w.localLabel

/-! ## Versions in the output of tools -/

/-- A run of decimal digits of any script at the start of a text. -/
def digitRun (cs : List Char) : List Char := cs.takeWhile Text.isDecimal

/-- Further runs of digits at the start of a text, each after a dot. -/
def dottedRuns : (fuel : Nat) → List Char → List Char
  | 0, _ => []
  | fuel + 1, '.' :: rest =>
    let run := digitRun rest
    if run.isEmpty then [] else '.' :: run ++ dottedRuns fuel (rest.drop run.length)
  | _ + 1, _ => []

/-- The first row of at least two numbers joined by dots in a text. -/
def firstDotted : List Char → Option (List Char)
  | [] => none
  | c :: cs =>
    let run := digitRun (c :: cs)
    let more := if run.isEmpty then [] else dottedRuns cs.length ((c :: cs).drop run.length)
    if more.isEmpty then firstDotted cs else some (run ++ more)

/-- The version number in a line of output: its first row of numbers joined by dots, if that is a
version at all. -/
def ofLine (line : String) : Except Breach (Option String) :=
  match firstDotted line.toList with
  | some found => (read (String.ofList found)).map fun v => v.map fun _ => String.ofList found
  | none => .ok none

/-- The version number of the first line that has one. -/
def ofLines : List String → Except Breach (Option String)
  | [] => .ok none
  | line :: rest =>
    match ofLine line with
    | .ok none => ofLines rest
    | found => found

/-- The version number in the output of a tool: that of the first line that has one. -/
def ofOutput (output : String) : Except Breach (Option String) := ofLines (Text.lines output)

/-- The actual version is at least the expected one. Without an expectation every version will do;
what is no version meets none. -/
def meets (actual expected : Option String) : Except Breach Bool :=
  match expected, actual with
  | none, _ => .ok true
  | some _, none => .ok false
  | some e, some a => do
    let some v ← read a | return false
    let some w ← read e | return false
    return (v.compare w).isGE

end Version

end Assay

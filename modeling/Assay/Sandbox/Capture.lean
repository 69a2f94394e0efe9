import Assay.Text.Utf8

/-!
# Capturing output

What a command writes is captured up to a cap. Output that reaches the cap has overflowed: only what
fits is kept, and no more is read.

`captureChunks` reads the output as it arrives, piece by piece; `capture` says what comes of it.
-/

namespace Assay.Sandbox

/-- Captured output, and whether it reached the cap. -/
structure Captured (α : Type) where
  kept : List α := []
  overflowed : Bool := false
deriving Repr, DecidableEq

/-- Reads pieces of output after what is kept already. An empty piece is the end of the output. -/
def captureChunks {α : Type} (cap : Nat) : (kept : List α) → List (List α) → Captured α
  | kept, [] => ⟨kept, false⟩
  | kept, chunk :: rest =>
    let room := cap - kept.length
    if chunk.isEmpty then ⟨kept, false⟩
    else if room ≤ chunk.length then ⟨kept ++ chunk.take room, true⟩
    else captureChunks cap (kept ++ chunk) rest

/-- What is captured of some output. -/
def capture {α : Type} (cap : Nat) (output : List α) : Captured α :=
  ⟨output.take cap, cap ≤ output.length⟩

/-- The bytes of an output. -/
abbrev Bytes := List UInt8

/-- How a command ended: its exit code (the negated number of the signal that ended it, if one did),
what it wrote, and why it was stopped if it was. -/
structure Outcome where
  exitCode : Int := 0
  stdout : Bytes := []
  stderr : Bytes := []
  timedOut : Bool := false
  overflowed : Bool := false
  cancelled : Bool := false
deriving Repr, DecidableEq, Inhabited

/-- The standard output as a text. -/
def Outcome.stdoutText (o : Outcome) : String := Text.Utf8.decode o.stdout

/-- The standard error as a text. -/
def Outcome.stderrText (o : Outcome) : String := Text.Utf8.decode o.stderr

end Assay.Sandbox

/-!
# UTF-8

Bytes are read as UTF-8 whatever they are. A character is begun by a lead byte, which says how many
bytes follow and what the first of them may be. Where the bytes of a character break off, what was
read of it becomes one replacement character, and the byte that does not fit is looked at anew.
-/

namespace Assay.Text.Utf8

/-- What stands for bytes that are no character. -/
def replacement : Char := Char.ofNat 0xFFFD

/-- A character of which some bytes are still to come: how many, the range of the next one, and the
number that the bytes so far make up. -/
structure Pending where
  missing : Nat
  low : Nat
  high : Nat
  value : Nat
deriving Repr, DecidableEq

/-- The first byte of a character of several bytes. -/
def lead? (b : Nat) : Option Pending :=
  if 0xC2 ≤ b && b ≤ 0xDF then some ⟨1, 0x80, 0xBF, b - 0xC0⟩
  else if b == 0xE0 then some ⟨2, 0xA0, 0xBF, 0⟩
  else if b == 0xED then some ⟨2, 0x80, 0x9F, 0xD⟩
  else if 0xE1 ≤ b && b ≤ 0xEF then some ⟨2, 0x80, 0xBF, b - 0xE0⟩
  else if b == 0xF0 then some ⟨3, 0x90, 0xBF, 0⟩
  else if 0xF1 ≤ b && b ≤ 0xF3 then some ⟨3, 0x80, 0xBF, b - 0xF0⟩
  else if b == 0xF4 then some ⟨3, 0x80, 0x8F, 4⟩
  else none

/-- The byte can be the next one of the character. -/
def Pending.fits (p : Pending) (b : Nat) : Bool := p.low ≤ b && b ≤ p.high

/-- The number after one more byte. -/
def Pending.extended (p : Pending) (b : Nat) : Nat := p.value * 64 + (b - 0x80)

/-- What a byte that begins something new leads to: characters, and a character begun. -/
def fresh (b : Nat) : List Char × Option Pending :=
  if b < 0x80 then ([Char.ofNat b], none)
  else match lead? b with
    | some p => ([], some p)
    | none => ([replacement], none)

/-- What the next byte leads to. -/
def step (pending : Option Pending) (b : Nat) : List Char × Option Pending :=
  match pending with
  | none => fresh b
  | some p =>
    if p.fits b then
      if p.missing == 1 then ([Char.ofNat (p.extended b)], none)
      else ([], some ⟨p.missing - 1, 0x80, 0xBF, p.extended b⟩)
    else
      let (chars, next) := fresh b
      (replacement :: chars, next)

/-- Reads bytes after a part of a character. -/
def decodeFrom (pending : Option Pending) : List UInt8 → List Char
  | [] => match pending with
    | none => []
    | some _ => [replacement]
  | b :: rest =>
    let (chars, next) := step pending b.toNat
    chars ++ decodeFrom next rest

/-- The text of bytes. -/
def decode (bytes : List UInt8) : String := String.ofList (decodeFrom none bytes)

/-- The bytes of a text. -/
def encode (s : String) : List UInt8 := s.toUTF8.toList

end Assay.Text.Utf8

/-!
# Blank characters

White space of every script, and trimming it off the ends of a text. Beside the ASCII blanks it
holds the four ASCII separators, the next-line control, and the spaces of Unicode; a zero-width space
and a byte-order mark are not blank.
-/

namespace Assay.Text

/-- White space of any script. -/
def isBlank (c : Char) : Bool :=
  let n := c.toNat
  (9 ≤ n && n ≤ 13) || (28 ≤ n && n ≤ 32) || n == 0x85 || n == 0xa0 || n == 0x1680 ||
    (0x2000 ≤ n && n ≤ 0x200a) || n == 0x2028 || n == 0x2029 || n == 0x202f || n == 0x205f ||
    n == 0x3000

/-- The characters without the blanks at their start. -/
def trimStart (cs : List Char) : List Char := cs.dropWhile isBlank

/-- The characters without the blanks at their end. -/
def trimEnd (cs : List Char) : List Char := (cs.reverse.dropWhile isBlank).reverse

/-- The characters without the blanks at both ends. -/
def trim (cs : List Char) : List Char := trimEnd (trimStart cs)

/-- A text without the blanks at both ends. -/
def strip (s : String) : String := String.ofList (trim s.toList)

/-- A text without the blanks at its end. -/
def stripEnd (s : String) : String := String.ofList (trimEnd s.toList)

/-- Nothing but blanks, possibly nothing at all. -/
def isBlankText (s : String) : Bool := s.toList.all isBlank

end Assay.Text

import Assay.Json.Reader

/-!
# The grammar of JSON

Which texts stand for which values, said by the shape of the texts and without a reader. `Spells k d cs`
says that `cs` is a text of the value `d` without blanks around it in which at most `k` lists and tables
stand in each other, and `Document k d cs` allows for blanks around it.
-/

namespace Assay.Json

/-! ## Blanks and digits -/

/-- A row of blanks of the format. -/
def IsSpacing (ws : List Char) : Prop := ∀ c ∈ ws, isSpace c = true

/-- A row of digits. -/
def IsDigits (ds : List Char) : Prop := ∀ d ∈ ds, Decimal.isAsciiDigit d = true

/-! ## Numbers -/

/-- The whole part of a number: a single zero, or digits that start with no zero. -/
inductive Whole : List Char → Prop
  | zero : Whole ['0']
  | digits {d : Char} {ds : List Char} : d ≠ '0' → IsDigits (d :: ds) → Whole (d :: ds)

/-- The digits behind the point, and the text that adds them to a number. -/
inductive Fraction : List Char → List Char → Prop
  | absent : Fraction [] []
  | present {d : Char} {ds : List Char} : IsDigits (d :: ds) → Fraction (d :: ds) ('.' :: d :: ds)

/-- The power of ten, and the text that adds it to a number. -/
inductive Exponent : Int → List Char → Prop
  | absent : Exponent 0 []
  | plain {e d : Char} {ds : List Char} : e = 'e' ∨ e = 'E' → IsDigits (d :: ds) →
      Exponent (Decimal.natOf (d :: ds)) (e :: d :: ds)
  | plus {e d : Char} {ds : List Char} : e = 'e' ∨ e = 'E' → IsDigits (d :: ds) →
      Exponent (Decimal.natOf (d :: ds)) (e :: '+' :: d :: ds)
  | minus {e d : Char} {ds : List Char} : e = 'e' ∨ e = 'E' → IsDigits (d :: ds) →
      Exponent (-Decimal.natOf (d :: ds)) (e :: '-' :: d :: ds)

/-- The text of a number with its sign. -/
def signed (negative : Bool) (cs : List Char) : List Char := if negative then '-' :: cs else cs

/-- The numbers and their texts. A number with a point or an exponent is a double. -/
inductive Numeral : Datum → List Char → Prop
  | whole {negative : Bool} {ds : List Char} : Whole ds → ds.length ≤ Decimal.maxWholeDigits →
      Numeral (.int (if negative then -(Decimal.natOf ds : Int) else Decimal.natOf ds))
        (signed negative ds)
  | double {negative : Bool} {ds fs point es : List Char} {n : Int} : Whole ds → Fraction fs point →
      Exponent n es → point ≠ [] ∨ es ≠ [] →
      Numeral (.float (Decimal.floatOfParts negative ds fs n)) (signed negative (ds ++ (point ++ es)))

/-! ## Strings -/

/-- The code unit that four hexadecimal digits denote. -/
def unit? (a b c d : Char) : Option Nat := do
  return 4096 * (← hexValue? a) + 256 * (← hexValue? b) + 16 * (← hexValue? c) + (← hexValue? d)

/-- A code unit that opens a pair. -/
def IsHigh (n : Nat) : Prop := 0xd800 ≤ n ∧ n < 0xdc00

/-- A code unit that closes a pair. -/
def IsLow (n : Nat) : Prop := 0xdc00 ≤ n ∧ n < 0xe000

/-- No unit that closes a pair comes next. -/
def NoLowNext (cs : List Char) : Prop :=
  ∀ a b c d n rest, cs = '\\' :: 'u' :: a :: b :: c :: d :: rest → unit? a b c d = some n → ¬ IsLow n

/-- The characters of a string and what stands for them between the quotes. -/
inductive Quotes : List Char → List Char → Prop
  | nil : Quotes [] []
  | plain {c : Char} {s cs : List Char} : 32 ≤ c.toNat → c ≠ '"' → c ≠ '\\' → Quotes s cs →
      Quotes (c :: s) (c :: cs)
  | short {e c : Char} {s cs : List Char} : shortEscape? e = some c → Quotes s cs →
      Quotes (c :: s) ('\\' :: e :: cs)
  | unit {a b c d : Char} {n : Nat} {s cs : List Char} : unit? a b c d = some n → ¬ IsHigh n →
      ¬ IsLow n → Quotes s cs → Quotes (Char.ofNat n :: s) ('\\' :: 'u' :: a :: b :: c :: d :: cs)
  | pair {a b c d a' b' c' d' : Char} {n m : Nat} {s cs : List Char} : unit? a b c d = some n →
      IsHigh n → unit? a' b' c' d' = some m → IsLow m → Quotes s cs →
      Quotes (Char.ofNat (0x10000 + 0x400 * (n - 0xd800) + (m - 0xdc00)) :: s)
        ('\\' :: 'u' :: a :: b :: c :: d :: '\\' :: 'u' :: a' :: b' :: c' :: d' :: cs)
  /-- Half of a pair alone stands for the replacement character. -/
  | half {a b c d : Char} {n : Nat} {s cs : List Char} : unit? a b c d = some n →
      IsHigh n ∧ NoLowNext cs ∨ IsLow n → Quotes s cs →
      Quotes ('\ufffd' :: s) ('\\' :: 'u' :: a :: b :: c :: d :: cs)

/-! ## Values -/

/-- A value in a list: its text, with the blanks before and after it. -/
structure Item where
  before : List Char
  value : Datum
  text : List Char
  after : List Char

/-- All of the text that an item takes up. -/
def Item.spelling (i : Item) : List Char := i.before ++ (i.text ++ i.after)

/-- The blanks of an item are blanks. -/
def Item.IsSpaced (i : Item) : Prop := IsSpacing i.before ∧ IsSpacing i.after

/-- A key in a table with its value, and the blanks around both. -/
structure Entry where
  before : List Char
  key : List Char
  quotes : List Char
  after : List Char
  item : Item

/-- All of the text that an entry takes up. -/
def Entry.spelling (e : Entry) : List Char :=
  e.before ++ ('"' :: (e.quotes ++ ('"' :: (e.after ++ (':' :: e.item.spelling)))))

/-- The blanks of an entry are blanks. -/
def Entry.IsSpaced (e : Entry) : Prop := IsSpacing e.before ∧ IsSpacing e.after ∧ e.item.IsSpaced

/-- The key of an entry with its value. -/
def Entry.binding (e : Entry) : String × Datum := (String.ofList e.key, e.item.value)

/-- The texts of items or entries with commas between them. -/
def commaSeparated (parts : List (List Char)) : List Char := [','].intercalate parts

/-- The values and their texts without blanks around them. At most `k` lists and tables stand in each
other, and of a repeated key the last value counts. -/
inductive Spells : (k : Nat) → Datum → List Char → Prop
  | null {k : Nat} : Spells k .null ['n', 'u', 'l', 'l']
  | true {k : Nat} : Spells k (.bool true) ['t', 'r', 'u', 'e']
  | false {k : Nat} : Spells k (.bool false) ['f', 'a', 'l', 's', 'e']
  | number {k : Nat} {d : Datum} {cs : List Char} : Numeral d cs → Spells k d cs
  | text {k : Nat} {s cs : List Char} : Quotes s cs →
      Spells k (.text (String.ofList s)) ('"' :: (cs ++ ['"']))
  | emptyList {k : Nat} {ws : List Char} : IsSpacing ws → Spells (k + 1) (.list []) ('[' :: (ws ++ [']']))
  | list {k : Nat} {items : List Item} : items ≠ [] → (∀ i ∈ items, i.IsSpaced) →
      (∀ i ∈ items, Spells k i.value i.text) →
      Spells (k + 1) (.list (items.map Item.value))
        ('[' :: (commaSeparated (items.map Item.spelling) ++ [']']))
  | emptyTable {k : Nat} {ws : List Char} : IsSpacing ws →
      Spells (k + 1) (.table []) ('{' :: (ws ++ ['}']))
  | table {k : Nat} {entries : List Entry} : entries ≠ [] → (∀ e ∈ entries, e.IsSpaced) →
      (∀ e ∈ entries, Quotes e.key e.quotes) → (∀ e ∈ entries, Spells k e.item.value e.item.text) →
      Spells (k + 1) (Datum.ofEntries (entries.map Entry.binding))
        ('{' :: (commaSeparated (entries.map Entry.spelling) ++ ['}']))

/-- The values and their texts, with blanks around them. -/
def Document (k : Nat) (d : Datum) (cs : List Char) : Prop :=
  ∃ i : Item, i.IsSpaced ∧ Spells k i.value i.text ∧ i.value = d ∧ i.spelling = cs

end Assay.Json

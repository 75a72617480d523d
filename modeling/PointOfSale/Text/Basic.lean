/-
  PointOfSale/Text/Basic.lean
  ===========================
  **Texts as rows of characters**: the white space around them, cutting them at a
  character, and digits.
-/

namespace PointOfSale.Text

/-! ### White space

The characters with the Unicode property White_Space. -/

/-- The code points with the property White_Space, as closed ranges. -/
def blankRanges : List (Nat × Nat) :=
  [(0x09, 0x0D), (0x20, 0x20), (0x85, 0x85), (0xA0, 0xA0), (0x1680, 0x1680), (0x2000, 0x200A),
    (0x2028, 0x2029), (0x202F, 0x202F), (0x205F, 0x205F), (0x3000, 0x3000)]

/-- Whether a character is white space. -/
def isBlank (c : Char) : Bool :=
  blankRanges.any fun (low, high) => low ≤ c.toNat && c.toNat ≤ high

def trimStart (cs : List Char) : List Char := cs.dropWhile isBlank

def trimEnd (cs : List Char) : List Char := (cs.reverse.dropWhile isBlank).reverse

/-- A text without the white space around it. -/
def trim (cs : List Char) : List Char := trimEnd (trimStart cs)

/-! ### Cutting at a character

There is one more piece than there are cuts; pieces may be empty. -/

/-- The pieces of a text between the occurrences of a character. -/
def pieces (separator : Char) : List Char → List (List Char)
  | [] => [[]]
  | c :: cs =>
    if c = separator then [] :: pieces separator cs
    else
      match pieces separator cs with
      | [] => [[c]]
      | p :: ps => (c :: p) :: ps

/-! ### Digits

A number is written in full, or with a fixed count of its last digits: a fraction
keeps its leading zeros, and so does a group of hexadecimal digits. -/

/-- The value of an ASCII decimal digit. -/
def digit? (c : Char) : Option Nat :=
  if '0' ≤ c ∧ c ≤ '9' then some (c.toNat - '0'.toNat) else none

/-- The value of an ASCII hexadecimal digit, in either case. -/
def hexDigit? (c : Char) : Option Nat :=
  if '0' ≤ c ∧ c ≤ '9' then some (c.toNat - '0'.toNat)
  else if 'a' ≤ c ∧ c ≤ 'f' then some (c.toNat - 'a'.toNat + 10)
  else if 'A' ≤ c ∧ c ≤ 'F' then some (c.toNat - 'A'.toNat + 10)
  else none

/-- The number that a row of digits denotes in the given base. -/
def ofDigits (base : Nat) (digits : List Nat) : Nat :=
  digits.foldl (fun n d => n * base + d) 0

/-- Every character as a digit, or `none` if one is not a digit. -/
def digits? (cs : List Char) : Option (List Nat) := cs.mapM digit?

/-- The digits of a natural number, without leading zeros; `0` for zero. -/
def natural (n : Nat) : List Char := Nat.toDigits 10 n

/-- The digits of an integer behind a minus sign where it is negative. -/
def integer (i : Int) : List Char :=
  if i < 0 then '-' :: natural i.natAbs else natural i.natAbs

/-- The last `count` digits of a number in the given base, leading zeros kept. -/
def lastDigits (base : Nat) : (count : Nat) → Nat → List Char
  | 0, _ => []
  | count + 1, n => lastDigits base count (n / base) ++ [Nat.digitChar (n % base)]

end PointOfSale.Text

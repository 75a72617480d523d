/-
  PointOfSale/Decimal/Notation.lean
  =================================
  **Decimals as text**: writing one with all digits of its scale, writing an amount
  of money or stock with two places at most, and reading decimals in both notations.
-/
import PointOfSale.Decimal.Arithmetic
import PointOfSale.Text.Basic

namespace PointOfSale

-- powers are the core ones, whatever else is in scope
attribute [local instance (high)] instPowNat

/-! ### Writing

A point stands only where there are fractional digits, and a minus sign where the
sign is set, in front of a zero too. -/

namespace Decimal

/-- The part behind the integer digits: the point and exactly `scale` digits. -/
def fraction (scale size : Nat) : List Char :=
  if scale = 0 then [] else '.' :: Text.lastDigits 10 scale size

def chars (d : Decimal) : List Char :=
  (if d.negative then ['-'] else []) ++ Text.natural (d.magnitude / 10 ^ d.scale) ++
    fraction d.scale d.magnitude

/-- The text of a decimal, as its scale has it: `14.50`. -/
def text (d : Decimal) : String := String.ofList d.chars

/-- The text of the number alone, the same at every scale: `14.5`. -/
def plainText (d : Decimal) : String := d.normalize.text

instance : ToString Decimal := ⟨text⟩

instance : Repr Decimal := ⟨fun d _ => d.text⟩

end Decimal

/-! ### Amounts of money and stock

They have two places.  A half goes to the even neighbour; in an amount of stock the
zeros at the end are dropped, and at least one digit stays behind the point. -/

/-- Decimal places of prices and stored amounts. -/
def moneyPlaces : Nat := 2

/-- A number rounded to the places of an amount. -/
def roundMoney (d : Decimal) : Decimal := d.roundTo moneyPlaces

/-- The text of an amount of stock: `8.0`, `7.25`. -/
def amountText (d : Decimal) : String :=
  let rounded := (roundMoney d).normalize
  if rounded.scale = 0 then rounded.text ++ ".0" else rounded.text

/-! ### Reading

A numeral is first read as digits (`Numeral.ofChars?`: sign, integer digits,
fractional places) and then turned into a decimal (`Numeral.toDecimal?`).  Fractional
digits are taken for as long as they fit; the first that does not fit decides, alone,
whether the last one taken goes up.  Those behind it have no say in the number, but
they are read all the same: a text with anything but digits and separators there is
no numeral, and it may still have a power of ten.  `ofScientific?` reads the form with
a power of ten behind `e` or `E`.

A numeral of zero has no sign; a number that an exponent brings down to zero keeps
the sign that it had. -/

/-- The digits of a numeral in positional notation.  Behind the point `none` stands for
    a separator. -/
structure Numeral where
  negative : Bool
  whole : List Nat
  fractional : List (Option Nat)
  deriving DecidableEq, Repr

namespace Numeral

open Text (digit? digits? ofDigits)

/-! ### From characters to digits -/

/-- The places behind the point, with whether the numeral has shown any digit.
    An underscore may separate digits once there was one. -/
def fractionalPlaces (seen : Bool) : List Char → Option (Bool × List (Option Nat))
  | [] => some (seen, [])
  | c :: cs =>
    match digit? c with
    | some d => (fractionalPlaces true cs).map fun (s, ps) => (s, some d :: ps)
    | none =>
      if c = '_' && seen then (fractionalPlaces seen cs).map fun (s, ps) => (s, none :: ps)
      else none

/-- The digits in front of the point and the places behind it. -/
def wholeDigits (seen : Bool) : List Char → Option (Bool × List Nat × List (Option Nat))
  | [] => some (seen, [], [])
  | c :: cs =>
    match digit? c with
    | some d => (wholeDigits true cs).map fun (s, ds, ps) => (s, d :: ds, ps)
    | none =>
      if c = '.' then (fractionalPlaces seen cs).map fun (s, ps) => (s, [], ps)
      else if c = '_' && seen then wholeDigits seen cs
      else none

/-- The sign in front of a numeral, if there is one, and the rest. -/
def sign : List Char → Bool × List Char
  | '-' :: cs => (true, cs)
  | '+' :: cs => (false, cs)
  | cs => (false, cs)

/-- Read a numeral: at most one sign, digits with at most one point, and at least
    one digit in all. -/
def ofChars? (cs : List Char) : Option Numeral :=
  match wholeDigits false (sign cs).2 with
  | some (true, whole, fractional) => some ⟨(sign cs).1, whole, fractional⟩
  | _ => none

/-! ### From digits to a decimal -/

/-- Round a coefficient by the first digit that did not fit.  A coefficient that
    leaves the range this way is rounded again with one digit less. -/
def roundAt (size scale digit : Nat) : Option (Nat × Nat) :=
  if digit < 5 then some (size, scale)
  else if size + 1 < Decimal.bound then some (size + 1, scale)
  else if scale = 0 then none
  else some ((size + 5) / 10, scale - 1)

/-- Coefficients below this bound, their last digit left off, are read digit by digit
    in one machine word. -/
def wordLimit : Nat := 1844674407370954906

/-- Whether the digits before the last of a coefficient fit into a machine word. -/
def isNarrow (size : Nat) : Bool := size / 10 < wordLimit

/-- Take fractional digits into a coefficient for as long as they fit.  A separator
    right behind the last place ends a narrow coefficient without rounding; any other
    is passed over. -/
def takePlaces (size scale : Nat) : List (Option Nat) → Option (Nat × Nat)
  | [] => some (size, scale)
  | none :: ps =>
    if scale = Decimal.maxScale ∧ isNarrow size then some (size, scale)
    else takePlaces size scale ps
  | some d :: ps =>
    if scale < Decimal.maxScale ∧ size * 10 + d < Decimal.bound then
      takePlaces (size * 10 + d) (scale + 1) ps
    else roundAt size scale d

/-- The decimal of a numeral.  Integer digits must all fit. -/
def toDecimal? (n : Numeral) : Option Decimal :=
  let size := ofDigits 10 n.whole
  if size < Decimal.bound then
    match takePlaces size 0 n.fractional with
    | some (size, scale) => (Decimal.ofParts? n.negative size scale).map Decimal.plainZero
    | none => none
  else none

end Numeral

namespace Decimal

open Text (digits? ofDigits)

/-- Read a decimal in positional notation. -/
def ofPositional? (cs : List Char) : Option Decimal := (Numeral.ofChars? cs).bind Numeral.toDecimal?

/-! ### Powers of ten -/

/-- The number without its last `count` digits; the most significant of these
    decides whether it goes up. -/
def cutDigits (size count : Nat) : Nat :=
  if count = 0 then size
  else size / 10 ^ count + if 5 ≤ size / 10 ^ (count - 1) % 10 then 1 else 0

/-- A decimal divided by a power of ten: the scale grows as far as it can, and
    digits beyond it are cut. -/
def lowerBy (d : Decimal) (power : Nat) : Option Decimal :=
  let scale := d.scale + power
  if scale ≤ maxScale then ofParts? d.negative d.magnitude scale
  else ofParts? d.negative (cutDigits d.magnitude (scale - maxScale)) maxScale

/-- A decimal multiplied by a power of ten: first the scale shrinks, then the
    coefficient grows. -/
def raiseBy (d : Decimal) (power : Nat) : Option Decimal :=
  if power ≤ d.scale then ofParts? d.negative d.magnitude (d.scale - power)
  else ofParts? d.negative (d.magnitude * 10 ^ (power - d.scale)) 0

/-- Read the digits of an exponent; at least one is needed. -/
def exponentDigits? (cs : List Char) : Option Nat :=
  if cs.isEmpty then none else (digits? cs).map (ofDigits 10)

/-- Read an exponent: an optional minus sign, an optional plus sign, digits. -/
def exponent? (cs : List Char) : Option (Bool × Nat) :=
  let (negative, cs) := match cs with
    | '-' :: rest => (true, rest)
    | _ => (false, cs)
  let cs := match cs with
    | '+' :: rest => rest
    | _ => cs
  (exponentDigits? cs).map fun n => (negative, n)

def isExponentMark (c : Char) : Bool := c = 'e' || c = 'E'

/-- Read a decimal with a power of ten behind the first `e` or `E`.  Exponents
    beyond the greatest scale are refused. -/
def ofScientific? (cs : List Char) : Option Decimal :=
  match cs.dropWhile (!isExponentMark ·) with
  | [] => none
  | _ :: power => do
    let d ← ofPositional? (cs.takeWhile (!isExponentMark ·))
    let (negative, n) ← exponent? power
    if maxScale < n then none
    else if negative then d.lowerBy n
    else d.raiseBy n

/-- Read a decimal in either notation. -/
def ofChars? (cs : List Char) : Option Decimal :=
  match ofPositional? cs with
  | some d => some d
  | none => ofScientific? cs

def ofString? (s : String) : Option Decimal := ofChars? s.toList

end Decimal

end PointOfSale

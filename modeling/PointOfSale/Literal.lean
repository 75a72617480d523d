/-
  PointOfSale/Literal.lean
  ========================
  **Figures as they were typed.**  Prices, multipliers and amounts are kept as
  the text that a merchant or a customer entered, and are read as numbers only
  where an evaluation needs them.
-/
import PointOfSale.Decimal.Arithmetic
import PointOfSale.Decimal.Notation
import PointOfSale.Operation
import PointOfSale.Text.Basic

namespace PointOfSale

/-- A figure or a choice, as it was typed. -/
structure Literal where
  text : String
  deriving DecidableEq, Repr, Inhabited

namespace Literal

/-- Whether there is nothing but white space. -/
def isBlank (l : Literal) : Bool := (Text.trim l.text.toList).isEmpty

/-! ### Reading a figure as a number

A decimal in either form, or a ratio of two decimals in parentheses, such as
`(1 / 4)`, with white space allowed around the whole and around both parts. -/

open Text (trim)

/-- Read a decimal; one plus sign in front of it is allowed. -/
def plain? : List Char → Option Decimal
  | '+' :: cs => Decimal.ofChars? cs
  | cs => Decimal.ofChars? cs

/-- What stands between an opening and a closing parenthesis at the two ends. -/
def enclosed? : List Char → Option (List Char)
  | '(' :: cs => if cs.getLast? = some ')' then some cs.dropLast else none
  | _ => none

/-- Read two decimals on both sides of the first slash, and divide. -/
def ratio? (cs : List Char) : Option Decimal :=
  match cs.dropWhile (· ≠ '/') with
  | [] => none
  | _ :: denominator => do
    let a ← plain? (trim (cs.takeWhile (· ≠ '/')))
    let b ← plain? (trim denominator)
    a.div? b

/-- Read a figure as a number. -/
def number? (cs : List Char) : Option Decimal :=
  match enclosed? (trim cs) with
  | some inner => ratio? inner
  | none => plain? (trim cs)

/-- The number that a text denotes. -/
def parse (text : String) : Except Fault Decimal :=
  match number? text.toList with
  | some d => .ok d
  | none => .error (.invalidNumericLiteral text)

/-- The number that a figure denotes. -/
def number (l : Literal) : Except Fault Decimal := parse l.text

end Literal

end PointOfSale

/-
  PointOfSale/Json/Figure.lean
  ============================
  **Numbers of a JSON text.**  A whole number within 64 bits is taken as it is.
  Any other number is read as a significand of at most 64 bits, further digits
  counting only for their place, which is converted to floating point and then
  multiplied or divided by the power of ten.
-/
import PointOfSale.Binary64
import PointOfSale.Json.Basic
import PointOfSale.Text.Basic

namespace PointOfSale.Figure

-- powers are the core ones, whatever else is in scope
attribute [local instance (high)] instPowNat

open Text (digit? ofDigits)

/-- Whole numbers are kept from this bound … -/
def leastWhole : Int := -(2 ^ (63 : Nat))

/-- … and below this one. -/
def wholeBound : Nat := 2 ^ (64 : Nat)

/-! ### Digits of a number -/

/-- A number as it is written. -/
structure Written where
  negative : Bool
  whole : List Nat
  fractional : List Nat
  exponent : Option Int
  deriving DecidableEq, Repr

def leadingDigits : List Char → List Nat × List Char
  | [] => ([], [])
  | c :: cs =>
    match digit? c with
    | some d => (d :: (leadingDigits cs).1, (leadingDigits cs).2)
    | none => ([], c :: cs)

/-- Read the power of ten behind the mark: an optional sign and at least one digit. -/
def power? (cs : List Char) : Option Int :=
  let (negative, cs) := match cs with
    | '-' :: rest => (true, rest)
    | '+' :: rest => (false, rest)
    | _ => (false, cs)
  match leadingDigits cs with
  | (d :: ds, []) =>
    let n : Int := ofDigits 10 (d :: ds)
    some (if negative then -n else n)
  | _ => none

/-- Read what follows the digits of a number: nothing, or a power of ten. -/
def ending? : List Char → Option (Option Int)
  | [] => some none
  | c :: cs => if c = 'e' ∨ c = 'E' then (power? cs).map some else none

/-- Read a number by the grammar of JSON: no leading zeros, and a digit on both sides
    of the point. -/
def written? (cs : List Char) : Option Written :=
  let (negative, cs) := match cs with
    | '-' :: rest => (true, rest)
    | _ => (false, cs)
  match leadingDigits cs with
  | ([], _) => none
  | (0 :: _ :: _, _) => none
  | (front, '.' :: rest) =>
    match leadingDigits rest with
    | ([], _) => none
    | (back, rest) => (ending? rest).map fun e => ⟨negative, front, back, e⟩
  | (front, rest) => (ending? rest).map fun e => ⟨negative, front, [], e⟩

/-! ### The value of a number -/

/-- Take integer digits while 64 bits hold them; give also how many are left. -/
def takeWhole (size : Nat) : List Nat → Nat × Nat
  | [] => (size, 0)
  | d :: ds =>
    if size * 10 + d < wholeBound then takeWhole (size * 10 + d) ds else (size, (d :: ds).length)

/-- Take fractional digits while 64 bits hold them; give also how many were taken. -/
def takeFractional (size : Nat) : List Nat → Nat × Nat
  | [] => (size, 0)
  | d :: ds =>
    if size * 10 + d < wholeBound then
      let (size, taken) := takeFractional (size * 10 + d) ds
      (size, taken + 1)
    else (size, 0)

/-- The greatest power of ten that floating point holds. -/
def greatestPower : Nat := 308

/-- A value divided by a power of ten, in two steps if one does not reach. -/
def lowered? (x : Binary64) (power : Nat) : Option Binary64 :=
  let divide (x : Binary64) (power : Nat) : Option Binary64 := do
    x.div? (← Binary64.tenTo? power)
  if power ≤ greatestPower then divide x power
  else do
    let x ← divide x greatestPower
    if power ≤ 2 * greatestPower then divide x (power - greatestPower) else return Binary64.zero

/-- A significand times a power of ten. -/
def scaled? (size : Nat) (exponent : Int) : Option Binary64 := do
  let x ← Binary64.nearest? size 1
  if exponent < 0 then lowered? x exponent.natAbs
  else if exponent.natAbs ≤ greatestPower then x.mul? (← Binary64.tenTo? exponent.natAbs)
  else if size = 0 then return x
  else none

/-- The number for what is written, or `none` beyond the greatest. -/
def ofWritten? (w : Written) : Option Figure :=
  let (size, left) := takeWhole 0 w.whole
  let rounded (x : Option Binary64) : Option Figure :=
    x.map fun x => .real (x.withSign w.negative)
  if left = 0 ∧ w.fractional = [] ∧ w.exponent = none then
    if ¬w.negative then some (.whole size)
    else if size ≠ 0 ∧ leastWhole ≤ -(size : Int) then some (.whole (-(size : Int)))
    else rounded (Binary64.nearest? size 1)
  else
    let (size, taken) := takeFractional size w.fractional
    rounded (scaled? size (left - taken + w.exponent.getD 0))

/-! ### Text -/

/-- A number as JSON text. -/
def chars : Figure → List Char
  | whole i => Text.integer i
  | real x => x.chars

def text (n : Figure) : String := String.ofList n.chars

instance : Repr Figure := ⟨fun n _ => n.text⟩

end PointOfSale.Figure

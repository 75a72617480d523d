/-
  PointOfSale/Binary64.lean
  =========================
  **Binary floating point, exactly.**  Figures travel as JSON numbers, and a
  number with a fraction is held there with 53 binary digits.  A finite value is
  kept as a whole multiple of `2 ^ -1074`, the smallest step of the format; every
  operation forms its exact result and rounds it once, to the nearest value, a
  tie to the even significand.
-/
import PointOfSale.Decimal.Notation

namespace PointOfSale

-- powers are the core ones, whatever else is in scope
attribute [local instance (high)] instPowNat

/-- The finite number `± mant * 2 ^ shift`, counted in steps of `2 ^ -1074`. -/
structure Binary64 where
  negative : Bool
  mant : Nat
  shift : Nat
  mant_lt : mant < 2 ^ (53 : Nat)
  shift_le : shift ≤ 2045
  full : 2 ^ (52 : Nat) ≤ mant ∨ shift = 0
  deriving DecidableEq

namespace Binary64

/-- The exponent of the smallest step, below the point. -/
def stepBits : Nat := 1074

/-- The size in steps of `2 ^ -1074`. -/
def steps (x : Binary64) : Nat := x.mant * 2 ^ x.shift

/-- The rational number that a value denotes. -/
def value (x : Binary64) : Rat :=
  mkRat (if x.negative then -(x.steps : Int) else x.steps) (2 ^ stepBits)

def isZero (x : Binary64) : Bool := x.mant = 0

/-- The value with the given parts, if the format has it. -/
def ofParts? (negative : Bool) (mant shift : Nat) : Option Binary64 :=
  if h : mant < 2 ^ (53 : Nat) ∧ shift ≤ 2045 ∧ (2 ^ (52 : Nat) ≤ mant ∨ shift = 0) then
    some ⟨negative, mant, shift, h.1, h.2.1, h.2.2⟩
  else none

def zero : Binary64 := ⟨false, 0, 0, by decide, by decide, Or.inr rfl⟩

def withSign (negative : Bool) (x : Binary64) : Binary64 := { x with negative }

/-- The value nearest to `num / den`, or `none` beyond the greatest. -/
def nearest? (num den : Nat) : Option Binary64 :=
  let scaled := num * 2 ^ stepBits
  let shift := Nat.log2 (scaled / den) - 52
  let mant := roundHalfEven scaled (den * 2 ^ shift)
  if mant = 2 ^ (53 : Nat) then ofParts? false (2 ^ (52 : Nat)) (shift + 1)
  else ofParts? false mant shift

/-! ### Arithmetic on sizes

The signs play no part: a sign is put on a result where it is needed. -/

def add? (x y : Binary64) : Option Binary64 := nearest? (x.steps + y.steps) (2 ^ stepBits)

def mul? (x y : Binary64) : Option Binary64 :=
  nearest? (x.steps * y.steps) (2 ^ (2 * stepBits))

def div? (x y : Binary64) : Option Binary64 := nearest? x.steps y.steps

/-- The nearest whole number, a half going up. -/
def round? (x : Binary64) : Option Binary64 :=
  nearest? ((2 * x.steps + 2 ^ stepBits) / (2 * 2 ^ stepBits)) 1

def tenTo? (n : Nat) : Option Binary64 := nearest? (10 ^ n) 1

/-! ### The fewest digits that read back

Around every value lies the interval of numbers that round to it; its ends belong to
it when the significand is even.  `shortest` looks for the coarsest decimal grid with
a point in that interval and gives its point nearest to the value.

All comparisons are made in naturals: a value is a whole number of steps of
`10 ^ -1074`, and the ends of its interval are whole numbers of quarters of such a
step. -/

/-- Decimal digits: a whole number times a power of ten. -/
structure Digits where
  digits : Nat
  exponent : Int
  deriving DecidableEq, Repr

/-- The distance from a value to the next above it, in steps of `10 ^ -1074`. -/
def spacing (x : Binary64) : Nat := 2 ^ x.shift * 5 ^ stepBits

/-- The size of a value in steps of `10 ^ -1074`. -/
def decimalSteps (x : Binary64) : Nat := x.mant * x.spacing

/-- The upper end of the numbers that round to a value, in quarter steps. -/
def upperEnd (x : Binary64) : Nat := 4 * x.decimalSteps + 2 * x.spacing

/-- The lower end of the numbers that round to a value, in quarter steps.  Below a
    power of two the values lie twice as close. -/
def lowerEnd (x : Binary64) : Nat :=
  if x.mant = 2 ^ (52 : Nat) ∧ x.shift ≠ 0 then 4 * x.decimalSteps - x.spacing
  else 4 * x.decimalSteps - 2 * x.spacing

/-- Whether a number, in quarter steps, rounds to a value. -/
def reads (x : Binary64) (quarters : Nat) : Bool :=
  if x.mant % 2 = 0 then x.lowerEnd ≤ quarters && quarters ≤ x.upperEnd
  else x.lowerEnd < quarters && quarters < x.upperEnd

/-- What decides between two points at equal distance from a value. -/
inductive Tie where
  | toEven
  | up
  deriving DecidableEq, Repr

/-- The choice between a point and the next above it, at equal distance. -/
def Tie.choose : Tie → (below : Nat) → Nat
  | .toEven, below => below + below % 2
  | .up, below => below + 1

/-- The point that stands for a value on the grid of multiples of `step`: of the two
    neighbours that read back, the nearer. -/
def gridPoint? (tie : Tie) (x : Binary64) (step : Nat) : Option Nat :=
  let below := x.decimalSteps / step
  let above := below + 1
  let fromBelow := x.decimalSteps - below * step
  let fromAbove := above * step - x.decimalSteps
  match x.reads (4 * (below * step)), x.reads (4 * (above * step)) with
  | true, true =>
    if fromBelow < fromAbove then some below
    else if fromAbove < fromBelow then some above
    else some (tie.choose below)
  | true, false => some below
  | false, true => some above
  | false, false => none

/-- Try the grids of `10 ^ (place - 1074)` from the coarsest down. -/
def search (tie : Tie) (x : Binary64) : (place : Nat) → Digits
  | 0 => ⟨x.decimalSteps, -(stepBits : Int)⟩
  | place + 1 =>
    match gridPoint? tie x (10 ^ (place + 1)) with
    | some n => ⟨n, (place + 1 : Int) - stepBits⟩
    | none => search tie x place

/-- The shortest digits of the size of a value. -/
def shortest (tie : Tie) (x : Binary64) : Digits :=
  if x.isZero then ⟨0, 0⟩ else search tie x (Nat.log2 x.decimalSteps / 3 + 2)

/-! ### Values as text

Always with the fewest digits.  A number in a JSON text is written positionally for
exponents from -5 to 15, with at least one digit behind the point, and with an
exponent and its sign otherwise.  The positional form has no exponent at any size.
The two forms part where a value lies half-way between two shortest texts: a JSON
number takes the even one, the positional form the greater. -/

/-- The exponents that a JSON number writes positionally: from the first to the
    second. -/
def positionalExponents : Int × Int := (-5, 15)

def zeros (count : Nat) : List Char := List.replicate count '0'

/-- Digits with the point behind the first `whole` of them; zeros fill the gap to
    the point on either side. -/
def placePoint (digits : List Char) (whole : Int) : List Char × List Char :=
  if whole ≤ 0 then (['0'], zeros (-whole).toNat ++ digits)
  else (digits.take whole.toNat ++ zeros (whole.toNat - digits.length), digits.drop whole.toNat)

/-- Digits behind a first one, with a power of ten: `1.5e-7`. -/
def exponentChars (digits : List Char) (exponent : Int) : List Char :=
  digits.take 1 ++ (if digits.length ≤ 1 then [] else '.' :: digits.drop 1) ++
    'e' :: (if exponent < 0 then '-' else '+') :: Text.natural exponent.natAbs

def sizeChars (x : Binary64) : List Char :=
  let shortest := x.shortest .toEven
  let digits := Text.natural shortest.digits
  let whole : Int := digits.length + shortest.exponent
  if positionalExponents.1 ≤ whole - 1 ∧ whole - 1 ≤ positionalExponents.2 then
    let (front, back) := placePoint digits whole
    front ++ '.' :: (if back.isEmpty then ['0'] else back)
  else exponentChars digits (whole - 1)

/-- A value as a JSON number. -/
def chars (x : Binary64) : List Char := (if x.negative then ['-'] else []) ++ x.sizeChars

def text (x : Binary64) : String := String.ofList x.chars

/-- A value in positional form, whatever its size. -/
def positionalChars (x : Binary64) : List Char :=
  let shortest := x.shortest .up
  let digits := Text.natural shortest.digits
  let (front, back) := placePoint digits (digits.length + shortest.exponent)
  (if x.negative then ['-'] else []) ++ front ++ (if back.isEmpty then [] else '.' :: back)

instance : Repr Binary64 := ⟨fun x _ => x.text⟩

end Binary64

/-! ### Decimals as values and back

A decimal is sent as the value of its integer part plus that of its fraction, brought
back onto the grid of its last digit.  A value that was received is taken at its
fewest digits. -/

namespace Decimal

/-- The value that is sent for the size of a decimal. -/
def sizeToBinary64? (d : Decimal) : Option Binary64 := do
  let unit := 10 ^ d.scale
  let whole ← Binary64.nearest? (d.magnitude / unit) 1
  if d.scale = 0 then return whole
  let tens ← Binary64.tenTo? d.scale
  let part ← (← Binary64.nearest? (d.magnitude % unit) 1).div? tens
  if part.isZero then return whole
  let sum ← whole.add? part
  (← (← sum.mul? tens).round?).div? tens

/-- The value that is sent for a decimal, with its sign. -/
def toBinary64 (d : Decimal) : Binary64 :=
  match d.sizeToBinary64? with
  | some x => x.withSign d.negative
  | none => Binary64.zero

/-- The decimal for a value that was received. -/
def ofBinary64? (x : Binary64) : Option Decimal := ofPositional? x.positionalChars

end Decimal

end PointOfSale

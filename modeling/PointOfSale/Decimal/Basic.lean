/-
  PointOfSale/Decimal/Basic.lean
  ==============================
  **Decimal numbers** — a sign and a coefficient of at most 96 bits over a power
  of ten with at most 28 fractional digits.  Two decimals may differ and still
  denote the same number (`1.5` and `1.50`, `0.00` and `-0.00`): scale and sign
  are part of the datum, because they show wherever a number is printed as it
  stands.

  `Decimal.value` is the rational that a decimal denotes; every operation of
  `Decimal/Arithmetic` is described through it.
-/

namespace PointOfSale

-- powers are the core ones, whatever else is in scope
attribute [local instance (high)] instPowNat

/-- Coefficients stay strictly below this bound in magnitude: they fill 96 bits. -/
def Decimal.bound : Nat := 2 ^ (96 : Nat)

/-- The greatest number of fractional digits. -/
def Decimal.maxScale : Nat := 28

/-- The number `± magnitude / 10 ^ scale`.  Zero has a sign too: it shows where the
    number is printed, and nowhere else. -/
structure Decimal where
  negative : Bool
  magnitude : Nat
  scale : Nat
  magnitude_lt : magnitude < Decimal.bound
  scale_le : scale ≤ Decimal.maxScale
  deriving DecidableEq

namespace Decimal

def signed (negative : Bool) (size : Nat) : Int :=
  if negative then -(size : Int) else size

theorem natAbs_signed (negative : Bool) (size : Nat) : (signed negative size).natAbs = size := by
  cases negative <;> simp [signed]

def coeff (d : Decimal) : Int := signed d.negative d.magnitude

/-- The rational number that a decimal denotes. -/
def value (d : Decimal) : Rat := mkRat d.coeff (10 ^ d.scale)

/-- Whether a decimal denotes zero, at whatever scale and with either sign. -/
def isZero (d : Decimal) : Bool := d.magnitude = 0

/-! ### Building decimals -/

/-- The decimal of the given sign, coefficient size and scale, if it is one. -/
def ofParts? (negative : Bool) (magnitude scale : Nat) : Option Decimal :=
  if h : magnitude < bound ∧ scale ≤ maxScale then some ⟨negative, magnitude, scale, h.1, h.2⟩
  else none

/-- A natural number below the bound, without fractional digits. -/
def ofNat (n : Nat) (h : n < bound) : Decimal := ⟨false, n, 0, h, Nat.zero_le _⟩

/-- A count of pieces as a decimal. -/
def ofUInt32 (n : UInt32) : Decimal :=
  ofNat n.toNat (Nat.lt_trans n.toNat_lt (by decide))

/-- The integer, if its size fits into a coefficient. -/
def ofInt? (i : Int) : Option Decimal := ofParts? (i < 0) i.natAbs 0

def zero : Decimal := ofNat 0 (by decide)

def one : Decimal := ofNat 1 (by decide)

def hundred : Decimal := ofNat 100 (by decide)

/-- The same size with the other sign. -/
def neg (d : Decimal) : Decimal := { d with negative := !d.negative }

def minusOne : Decimal := one.neg

instance : Inhabited Decimal := ⟨zero⟩

instance : Neg Decimal := ⟨neg⟩

/-- The same number; if it is zero, without a sign. -/
def plainZero (d : Decimal) : Decimal := { d with negative := d.negative && !d.isZero }

/-! ### Order -/

/-- Decimals are compared as numbers: both coefficients are brought to one scale. -/
def Lt (a b : Decimal) : Prop := a.coeff * 10 ^ b.scale < b.coeff * 10 ^ a.scale

instance : LT Decimal := ⟨Lt⟩

instance (a b : Decimal) : Decidable (a < b) := Int.decLt _ _

/-- The greater of two decimals; of two that denote one number, the first. -/
def atLeast (a floor : Decimal) : Decimal := if a < floor then floor else a

/-! ### Zeros at the end -/

/-- Drop `count` zeros from the end at once, if they are there and behind the point. -/
def dropZeroBlock (count : Nat) (d : Decimal) : Decimal :=
  if count ≤ d.scale ∧ d.magnitude % 10 ^ count = 0 then
    ⟨d.negative, d.magnitude / 10 ^ count, d.scale - count,
      Nat.lt_of_le_of_lt (Nat.div_le_self _ _) d.magnitude_lt,
      Nat.le_trans (Nat.sub_le _ _) d.scale_le⟩
  else d

/-- Drop fractional zeros from the end, one at a time. -/
def dropZeros (negative : Bool) (m : Nat) : (s : Nat) → m < bound → s ≤ maxScale → Decimal
  | 0, hm, hs => ⟨negative, m, 0, hm, hs⟩
  | s + 1, hm, hs =>
    if m % 10 = 0 then
      dropZeros negative (m / 10) s (by omega) (Nat.le_of_succ_le hs)
    else ⟨negative, m, s + 1, hm, hs⟩

/-- The same number with the fewest fractional digits, a zero without its sign. -/
def normalize (d : Decimal) : Decimal :=
  (dropZeros d.negative d.magnitude d.scale d.magnitude_lt d.scale_le).plainZero

end Decimal

end PointOfSale

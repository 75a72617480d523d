/-
  PointOfSale/Decimal/Arithmetic.lean
  ===================================
  **Checked arithmetic.**  Each operation forms the exact result and rounds it
  once, to the finest decimal that fits (`Decimal.nearest?`).  The answer is
  `none` when even the integer part does not fit, and for a quotient by zero.

  A zero operand has no say in the scale: adding it returns the other operand
  as it stands, and a product with it is the plain zero.
-/
import PointOfSale.Decimal.Basic

namespace PointOfSale

-- powers are the core ones, whatever else is in scope
attribute [local instance (high)] instPowNat

/-! ### Rounding an exact quotient

`roundHalfEven` takes a quotient of naturals to the nearest natural, a half going
to the even neighbour.  `Decimal.nearest?` gives the finest decimal that an exact
quotient can be rounded to: it tries each scale from the one asked for down to
zero and takes the first whose coefficient fits.  The exact quotient is rounded at
every try, so a number is never rounded twice. -/

/-- `num / den` to the nearest natural, a half to the even neighbour. -/
def roundHalfEven (num den : Nat) : Nat :=
  let quotient := num / den
  let rest := num % den
  if 2 * rest < den then quotient
  else if den < 2 * rest then quotient + 1
  else quotient + quotient % 2

theorem roundHalfEven_le (num den : Nat) (h : 0 < den) : roundHalfEven num den ≤ num := by
  have hsum := Nat.div_add_mod num den
  have hq : num / den ≤ den * (num / den) := Nat.le_mul_of_pos_left _ h
  simp only [roundHalfEven]
  split
  · omega
  · split <;> omega

namespace Decimal

/-- The finest decimal for `± num / den` with at most `scale` fractional digits. -/
def nearest? (negative : Bool) (num den : Nat) : (scale : Nat) → Option Decimal
  | 0 => ofParts? negative (roundHalfEven num den) 0
  | s + 1 =>
    match ofParts? negative (roundHalfEven (num * 10 ^ (s + 1)) den) (s + 1) with
    | some d => some d
    | none => nearest? negative num den s

/-- Round to at most `places` fractional digits; a decimal with no more than that
    many is left alone.  A number that vanishes gives up its sign; a zero keeps it. -/
def roundTo (places : Nat) (d : Decimal) : Decimal :=
  if h : d.scale ≤ places then d
  else
    let rounded := roundHalfEven d.magnitude (10 ^ (d.scale - places))
    ⟨d.negative && (d.isZero || rounded ≠ 0), rounded, places,
      Nat.lt_of_le_of_lt (roundHalfEven_le _ _ (Nat.pow_pos (by decide))) d.magnitude_lt,
      Nat.le_trans (Nat.le_of_lt (Nat.lt_of_not_le h)) d.scale_le⟩

/-! ### Sums and products -/

/-- The sum, at the finer of the two scales. -/
def add? (a b : Decimal) : Option Decimal :=
  if a.isZero then some b
  else if b.isZero then some a
  else
    let scale := max a.scale b.scale
    let sum := a.coeff * 10 ^ (scale - a.scale) + b.coeff * 10 ^ (scale - b.scale)
    nearest? (sum < 0) sum.natAbs (10 ^ scale) scale

/-- The difference, as the sum with the negative; to take a zero away is to add it. -/
def sub? (a b : Decimal) : Option Decimal := add? a (if b.isZero then b else -b)

/-- Whether a coefficient fits into half a machine word. -/
def isShort (d : Decimal) : Bool := d.magnitude < 2 ^ (32 : Nat)

/-- Two short factors of more fractional digits than this have the plain zero for
    their product. -/
def shortProductScale : Nat := 47

/-- The product, at the sum of the two scales.  One that vanishes keeps the sign of
    the exact product. -/
def mul? (a b : Decimal) : Option Decimal :=
  let scale := a.scale + b.scale
  if a.isZero || b.isZero then some zero
  else if a.isShort && b.isShort && shortProductScale < scale then some zero
  else nearest? (a.negative != b.negative) (a.magnitude * b.magnitude) (10 ^ scale) scale

/-! ### Quotients

A long division first takes the digits of the dividend, and then `stride` further
digits at a time, until nothing is left or no more digits fit; the last digit is
rounded, a half to the even neighbour.  A quotient that ended with the digits of
the dividend keeps its scale.  From any other the zeros at its end are taken off in
blocks, each size of block tried once, so that a few zeros may stay: `9 / 5` is
`1.80`. -/

/-- How many digits a long division takes at a time. -/
def stride : Nat := 9

/-- The number of strides after which nothing is left, if there is one in reach. -/
def strides? (num den : Nat) : Option Nat :=
  (List.range 7).find? fun n => num * 10 ^ (stride * n) % den = 0

/-- The number of fractional digits at which a division comes to rest. -/
def restingScale (a b : Decimal) : Nat :=
  match strides? a.magnitude b.magnitude with
  | some n => min maxScale (a.scale + stride * n - b.scale)
  | none => maxScale

/-- Drop eight zeros at once from a coefficient whose low half word is empty. -/
def dropLongBlock (d : Decimal) : Decimal :=
  if d.magnitude % 2 ^ (32 : Nat) = 0 then d.dropZeroBlock 8 else d

/-- Take off zeros by eights as long as the coefficient allows it, then four, two
    and one of them, each once. -/
def dropZeroBlocks (d : Decimal) : Decimal :=
  let d := dropLongBlock (dropLongBlock (dropLongBlock d))
  ((d.dropZeroBlock 4).dropZeroBlock 2).dropZeroBlock 1

/-- The quotient.  One that vanishes is the zero without a sign. -/
def div? (a b : Decimal) : Option Decimal :=
  if b.isZero then none
  else if a.isZero then some zero
  else
    let quotient? := nearest? (a.negative != b.negative) (a.magnitude * 10 ^ b.scale)
      (b.magnitude * 10 ^ a.scale) (restingScale a b)
    if a.magnitude % b.magnitude = 0 then quotient?
    else quotient?.map fun q => q.dropZeroBlocks.plainZero

/-! ### Division by one hundred

It never fails: the quotient is smaller than the number, so at the latest its
integer part fits.  `hundredth` is therefore a function on all decimals. -/

theorem ofParts?_isSome {negative : Bool} {size scale : Nat} (hsize : size < bound)
    (hscale : scale ≤ maxScale) : (ofParts? negative size scale).isSome := by
  simp [ofParts?, hsize, hscale]

theorem nearest?_isSome {negative : Bool} {num den : Nat} (h : roundHalfEven num den < bound)
    (scale : Nat) : (nearest? negative num den scale).isSome := by
  induction scale with
  | zero => exact ofParts?_isSome h (Nat.zero_le _)
  | succ s ih =>
    simp only [nearest?]
    split
    · rfl
    · exact ih

theorem roundHalfEven_hundred_lt {size : Nat} (h : size < bound) (scale : Nat) :
    roundHalfEven size (100 * 10 ^ scale) < bound :=
  Nat.lt_of_le_of_lt (roundHalfEven_le _ _ (Nat.mul_pos (by decide) (Nat.pow_pos (by decide)))) h

theorem div?_hundred_isSome (d : Decimal) : (d.div? hundred).isSome := by
  have hzero : hundred.isZero = false := by decide
  have hsize : hundred.magnitude = 100 := rfl
  have hscale : hundred.scale = 0 := rfl
  have hsome (negative : Bool) : (nearest? negative d.magnitude (100 * 10 ^ d.scale)
      (restingScale d hundred)).isSome :=
    nearest?_isSome (roundHalfEven_hundred_lt d.magnitude_lt d.scale) _
  simp only [div?, hzero, hsize, hscale, Bool.false_eq_true, if_false, Nat.pow_zero, Nat.mul_one]
  split
  · rfl
  · split
    · exact hsome _
    · rw [Option.isSome_map]
      exact hsome _

/-- The hundredth part of a decimal. -/
def hundredth (d : Decimal) : Decimal := (d.div? hundred).get (div?_hundred_isSome d)

end Decimal

end PointOfSale

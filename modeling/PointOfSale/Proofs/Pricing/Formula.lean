/-
  PointOfSale/Proofs/Pricing/Formula.lean
  =======================================
  **The price formula over exact rationals.**  The fields are walked once, in the
  order in which they are declared.  Every field that affects the price and is
  priced has one share in it, and no other field has one.  Shares of base fields
  are combined one by one, from zero; the others go to a product and a sum:

    price before tax = base × product + sum,    tax = price before tax × rate / 100.

  Nothing is rounded before the quote, and there a half goes to the even cent.
-/
import PointOfSale.Literal
import PointOfSale.Menu
import PointOfSale.Operation
import PointOfSale.Proofs.Decimal.Rounding

namespace PointOfSale

/-! ### Figures -/

def Literal.ratioParts? (cs : List Char) : Option (Decimal × Decimal) :=
  match cs.dropWhile (· ≠ '/') with
  | [] => none
  | _ :: denominator => do
    let a ← Literal.plain? (Text.trim (cs.takeWhile (· ≠ '/')))
    let b ← Literal.plain? (Text.trim denominator)
    return (a, b)

/-- The number that a figure denotes; a ratio denotes the exact quotient. -/
def Literal.figure? (l : Literal) : Option ℚ :=
  match Literal.enclosed? (Text.trim l.text.toList) with
  | some inner => do
    let (a, b) ← Literal.ratioParts? inner
    if b.isZero then none else some (a.value / b.value)
  | none => (Literal.plain? (Text.trim l.text.toList)).map Decimal.value

def Operation.exact (op : Operation) (value accumulator : ℚ) : ℚ :=
  match op with
  | .add => accumulator + value
  | .subtract => accumulator - value
  | .multiply => accumulator * value

/-! ### Shares -/

/-- What one field has to do with the price. -/
inductive Share where
  | base (op : Operation) (x : ℚ)
  | adder (x : ℚ)
  | multiplier (x : ℚ)
  deriving DecidableEq

namespace Share

/-- A share outside the base: the factor `+` adds, every other one multiplies. -/
def byFactor (p : Pricing) (x : ℚ) : Share := if p.factor = "+" then adder x else multiplier x

/-- A share in the base, combined by the operation that the factor names. -/
def inBase? (p : Pricing) (x : ℚ) : Option Share := (Operation.ofToken? p.factor).map (base · x)

def ofConstant? (p : Pricing) : Option Share := do
  let x ← p.constant.figure?
  if p.isBasePrice then inBase? p x else some (byFactor p x)

/-- The figure for the chosen option, zero for one that has none. -/
def optionFigure? (p : Pricing) (chosen : Literal) : Option ℚ :=
  match p.perOption.get? chosen.text with
  | some l => l.figure?
  | none => some 0

def ofOption? (p : Pricing) (chosen : Literal) : Option Share := do
  let x ← optionFigure? p chosen
  if p.isBasePrice then inBase? p x else some (adder x)

/-- The figure under the choice for the field and then under the choice for the field that it
    depends on, minus one where a link to it is missing. -/
def dependencyFigure? (fields : List Field) (choices : List Choice) (d : PriceDependency)
    (chosen : Literal) : Option ℚ :=
  let source := if fields.any (·.label = d.source) then chosenValue? choices d.source else none
  match source.bind fun s => (d.values.get? chosen.text).bind (·.get? s.text) with
  | some l => l.figure?
  | none => some (-1)

def ofDependency? (fields : List Field) (choices : List Choice) (p : Pricing) (chosen : Literal) :
    Option Share := do
  let d ← p.dependsOn
  let x ← dependencyFigure? fields choices d chosen
  return byFactor p x

def ofActive? (fields : List Field) (choices : List Choice) (f : Field) : Option Share :=
  match f.pricing.priceBy with
  | .constant | .input => ofConstant? f.pricing
  | .perOption => do ofOption? f.pricing (← chosenValue? choices f.label)
  | .optionValue => do
    let chosen ← chosenValue? choices f.label
    chosen.figure?.map multiplier
  | .scaledOptionValue => do
    let chosen ← chosenValue? choices f.label
    let scale ← f.pricing.constant.figure?
    chosen.figure?.map fun x => multiplier (scale * x)
  | .dependency => do ofDependency? fields choices f.pricing (← chosenValue? choices f.label)
  | .unpriced => none

end Share

/-! ### The walk -/

/-- Base, product of the multipliers and sum of the adders. -/
structure PriceParts where
  base : ℚ := 0
  product : ℚ := 1
  sum : ℚ := 0
  deriving DecidableEq

namespace PriceParts

def take (parts : PriceParts) : Share → PriceParts
  | .base op x => { parts with base := op.exact x parts.base }
  | .adder x => { parts with sum := parts.sum + x }
  | .multiplier x => { parts with product := parts.product * x }

/-- Take a field in: its share if it affects the price and is priced, and else nothing. -/
def step (fields : List Field) (choices : List Choice) (parts : PriceParts) (f : Field) :
    Option PriceParts :=
  if f.pricing.affectsPrice ∧ f.pricing.priceBy ≠ .unpriced then
    parts.take <$> Share.ofActive? fields choices f
  else some parts

def ofFields? (fields : List Field) (choices : List Choice) : Option PriceParts :=
  fields.foldlM (step fields choices) {}

def preTax (parts : PriceParts) : ℚ := parts.base * parts.product + parts.sum

end PriceParts

def nearestCents (x : ℚ) : ℚ := halfEven (x * 100) / 100

structure ExactQuote where
  price : ℚ
  tax : ℚ
  subtotal : ℚ
  deriving DecidableEq

namespace ExactQuote

/-- Tax follows the price before tax as it is; the two prices are not negative. -/
def ofPreTax (preTax rate : ℚ) : ExactQuote :=
  let tax := preTax * rate / 100
  { price := nearestCents (max 0 (preTax + tax))
    tax := nearestCents tax
    subtotal := nearestCents (max 0 preTax) }

def ofFields? (fields : List Field) (choices : List Choice) (rate : ℚ) : Option ExactQuote := do
  let parts ← PriceParts.ofFields? fields choices
  return ofPreTax parts.preTax rate

end ExactQuote

end PointOfSale

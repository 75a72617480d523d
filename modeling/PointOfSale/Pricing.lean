/-
  PointOfSale/Pricing.lean
  ========================
  **The price of one piece.**  Fields are paired with the customer's choices; each
  pair contributes a figure to the base price, to the multipliers or to the adders;
  and the price before tax is the base, multiplied by each multiplier, plus each
  adder.
-/
import Std.Data.HashMap
import PointOfSale.Decimal.Arithmetic
import PointOfSale.Decimal.Notation
import PointOfSale.Literal
import PointOfSale.Menu
import PointOfSale.Operation

namespace PointOfSale

/-! ### Fields with the customer's choices

Every field is paired with the choice that carries its label, in the order of the
fields; the order of the choices does not matter.  Of several choices with one label
the first counts. -/

/-- A field and what was chosen for it. -/
structure FieldPair where
  field : Field
  chosen : Option Literal
  deriving DecidableEq, Repr

namespace FieldPair

def label (p : FieldPair) : String := p.field.label

/-- Choices by label; a label keeps its first choice. -/
def choiceIndex (choices : List Choice) : Std.HashMap String Literal :=
  choices.foldl (fun index c => index.insertIfNew c.label c.value) ∅

/-- Pair each field with its choice. -/
def pairByLabel (fields : List Field) (choices : List Choice) : List FieldPair :=
  let index := choiceIndex choices
  fields.map fun field => ⟨field, index[field.label]?⟩

end FieldPair

/-! ### Prices that depend on another field

The figure stands under the choice for the priced field and then under the choice for
the field that it depends on.  Where a link is missing the figure is minus one; a figure
that is there has to be a number. -/

namespace PriceDependency

/-- What a dependency gives where its figure is not found. -/
def unresolved : Decimal := Decimal.minusOne

/-- What was chosen for the field that a dependency names. -/
def sourceChoice? (d : PriceDependency) (pairs : List FieldPair) : Option Literal :=
  (pairs.find? (·.label = d.source)).bind (·.chosen)

/-- The figure for the current choice. -/
def entry? (d : PriceDependency) (current : String) (pairs : List FieldPair) : Option Literal := do
  let source ← d.sourceChoice? pairs
  let row ← d.values.get? current
  row.get? source.text

/-- The number for the current choice. -/
def resolve (d : PriceDependency) (current : String) (pairs : List FieldPair) :
    Except Fault Decimal :=
  match d.entry? current pairs with
  | some l => l.number
  | none => .ok unresolved

end PriceDependency

/-! ### What a single field adds

An inactive field contributes nothing, whatever else it says. -/

/-- Where the figure of a field goes. -/
inductive Contribution where
  | base (d : Decimal)
  | adder (d : Decimal)
  | multiplier (d : Decimal)
  deriving DecidableEq, Repr

namespace FieldPair

/-- The chosen value, or a fault that names the field. -/
def choice (p : FieldPair) : Except Fault Literal :=
  match p.chosen with
  | some l => .ok l
  | none => .error (.selectionNotFound p.label)

/-- A figure that is added or multiplied, as the factor says. -/
def byFactor (p : Pricing) (d : Decimal) : Contribution :=
  if p.isAdditive then .adder d else .multiplier d

def constantContribution (p : FieldPair) : Except Fault Contribution := do
  let d ← p.field.pricing.constant.number
  return if p.field.pricing.isBasePrice then .base d else byFactor p.field.pricing d

/-- The contribution of the figure for the chosen option; zero for an option that has
    none. -/
def optionContribution (p : FieldPair) : Except Fault Contribution := do
  let chosen ← p.choice
  let d ← match p.field.pricing.perOption.get? chosen.text with
    | some l => l.number
    | none => pure Decimal.zero
  return if p.field.pricing.isBasePrice then .base d else .adder d

def valueContribution (p : FieldPair) : Except Fault Contribution := do
  let chosen ← p.choice
  return .multiplier (← chosen.number)

def scaledContribution (p : FieldPair) : Except Fault Contribution := do
  let chosen ← p.choice
  let scale ← p.field.pricing.constant.number
  return .multiplier (← Operation.multiply.apply (← chosen.number) scale)

def dependencyContribution (p : FieldPair) (all : List FieldPair) : Except Fault Contribution := do
  let chosen ← p.choice
  match p.field.pricing.dependsOn with
  | none => throw (.missingDependency p.label)
  | some d => return byFactor p.field.pricing (← d.resolve chosen.text all)

/-- The contribution of a field, if it has one, among all the fields of its item. -/
def contribution (p : FieldPair) (all : List FieldPair) : Except Fault (Option Contribution) :=
  if p.field.pricing.affectsPrice then
    match p.field.pricing.priceBy with
    | .constant | .input => some <$> p.constantContribution
    | .perOption => some <$> p.optionContribution
    | .optionValue => some <$> p.valueContribution
    | .scaledOptionValue => some <$> p.scaledContribution
    | .dependency => some <$> p.dependencyContribution all
    | .unpriced => .ok none
  else .ok none

end FieldPair

/-! ### The parts of a price

Fields are evaluated in three tiers — fixed figures, then scaled and dependent ones,
then values that are multipliers themselves — and in the order of the schema within a
tier.  Base figures are combined one by one; multipliers and adders are collected. -/

/-- When a kind of pricing is evaluated. -/
inductive PriceTier where
  | fixed
  | derived
  | chosen
  deriving DecidableEq, Repr

/-- The tiers in the order of evaluation. -/
def PriceTier.all : List PriceTier := [.fixed, .derived, .chosen]

/-- The tier of a kind of pricing. -/
def PriceBy.tier : PriceBy → PriceTier
  | constant | perOption | input | unpriced => .fixed
  | scaledOptionValue | dependency => .derived
  | optionValue => .chosen

/-- The parts of a price. -/
structure Breakdown where
  base : Decimal := Decimal.zero
  multipliers : List Decimal := []
  adders : List Decimal := []
  deriving DecidableEq, Repr

namespace Breakdown

/-- Pairs in the order of evaluation. -/
def inTiers (pairs : List FieldPair) : List FieldPair :=
  PriceTier.all.flatMap fun tier => pairs.filter (·.field.pricing.priceBy.tier = tier)

/-- Take a contribution in; the token of the field says how a base figure combines. -/
def combine (b : Breakdown) (factor : String) : Contribution → Except Fault Breakdown
  | .base d => do
    let op ← Operation.parse factor
    return { b with base := ← op.apply d b.base }
  | .adder d => return { b with adders := b.adders ++ [d] }
  | .multiplier d => return { b with multipliers := b.multipliers ++ [d] }

/-- Take a field in. -/
def step (all : List FieldPair) (b : Breakdown) (p : FieldPair) : Except Fault Breakdown := do
  match ← p.contribution all with
  | some c => b.combine p.field.pricing.factor c
  | none => return b

/-- The parts of the price of the paired fields. -/
def ofPairs (pairs : List FieldPair) : Except Fault Breakdown :=
  (inTiers pairs).foldlM (step pairs) {}

/-- The parts of the price of fields with choices. -/
def evaluate (fields : List Field) (choices : List Choice) : Except Fault Breakdown :=
  ofPairs (FieldPair.pairByLabel fields choices)

/-- The price before tax, neither rounded nor raised to zero. -/
def preTax (b : Breakdown) : Except Fault Decimal := do
  let scaled ← b.multipliers.foldlM (fun total m => Operation.multiply.apply m total) b.base
  b.adders.foldlM (fun total a => Operation.add.apply a total) scaled

end Breakdown

/-! ### Quotes

Tax follows the price before tax even where that is negative; only the figures that are
quoted as prices are raised to zero. -/

/-- The price of one piece of an item. -/
structure Quote where
  /-- The price with tax, never negative. -/
  price : Decimal
  /-- The tax, negative where the price before tax is. -/
  tax : Decimal
  /-- The price before tax, never negative. -/
  subtotal : Decimal
  deriving DecidableEq, Repr

namespace Quote

/-- The tax on a price, at a rate in percent. -/
def taxOn (preTax rate : Decimal) : Except Fault Decimal :=
  Decimal.hundredth <$> Operation.multiply.apply rate preTax

def ofPreTax (preTax rate : Decimal) : Except Fault Quote := do
  let tax ← taxOn preTax rate
  let price ← Operation.add.apply tax preTax
  return {
    price := roundMoney (price.atLeast Decimal.zero)
    tax := roundMoney tax
    subtotal := roundMoney (preTax.atLeast Decimal.zero) }

def ofBreakdown (b : Breakdown) (rate : Decimal) : Except Fault Quote := do
  ofPreTax (← b.preTax) rate

/-- The quote for fields with choices, at a tax rate in percent. -/
def evaluate (fields : List Field) (choices : List Choice) (rate : Decimal) :
    Except Fault Quote := do
  ofBreakdown (← Breakdown.evaluate fields choices) rate

end Quote

end PointOfSale

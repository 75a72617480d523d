/-
  PointOfSale/Menu.lean
  =====================
  **What is for sale and what a customer chose.**  An item has fields that a
  customer chooses for, each with a pricing, and a stock; a selection has a value
  for each of several fields.
-/
import PointOfSale.Decimal.Notation
import PointOfSale.Literal
import PointOfSale.Table
import PointOfSale.Uuid

namespace PointOfSale

/-! ### Fields

A field has a label, a form element, and a pricing: how the customer's choice, a
constant or another field's choice enters the price. -/

/-- How a field is priced. -/
inductive PriceBy where
  /-- A fixed amount. -/
  | constant
  /-- An amount for the chosen option. -/
  | perOption
  /-- The chosen value is itself a multiplier. -/
  | optionValue
  /-- A constant scaled by the chosen value. -/
  | scaledOptionValue
  /-- An amount for this choice and another field's choice together. -/
  | dependency
  /-- Free input, priced like a constant. -/
  | input
  /-- Without effect on the price. -/
  | unpriced
  deriving DecidableEq, Repr, Inhabited

/-- Whether pricing looks at the value that was chosen for the field. -/
def PriceBy.readsChoice : PriceBy → Bool
  | perOption | optionValue | scaledOptionValue | dependency => true
  | constant | input | unpriced => false

/-- The form element of a field. -/
inductive FieldKind where
  | select
  | textField
  | other
  deriving DecidableEq, Repr

/-- The field whose choice a price depends on, with the figures by the choice of the
    priced field and then by that of the other. -/
structure PriceDependency where
  source : String := ""
  values : Table (Table Literal) := ∅
  deriving DecidableEq, Repr

/-- How a field enters the price. -/
structure Pricing where
  affectsPrice : Bool := true
  isBasePrice : Bool := false
  /-- The token of the operation: `+` adds, all other factors of a field that is not
      a base price multiply. -/
  factor : String := "+"
  priceBy : PriceBy := .unpriced
  constant : Literal := ⟨""⟩
  perOption : Table Literal := ∅
  dependsOn : Option PriceDependency := none
  deriving DecidableEq, Repr

namespace Pricing

/-- Whether the field is added rather than multiplied. -/
def isAdditive (p : Pricing) : Bool := p.factor = "+"

/-- Whether the field contributes to the price at all. -/
def isActive (p : Pricing) : Bool := p.affectsPrice && p.priceBy ≠ .unpriced

end Pricing

structure Field where
  label : String
  kind : FieldKind := .select
  options : List String := []
  placeholder : Option String := none
  pricing : Pricing := {}
  deriving DecidableEq, Repr

/-- A field to choose from, with the given options. -/
def Field.selecting (label : String) (options : List String) : Field := { label, options }

/-! ### Choices

A value for each of several fields, and, for an order line, the item and how many
pieces of it. -/

/-- The value chosen for the field with a label. -/
structure Choice where
  label : String
  value : Literal := ⟨""⟩
  deriving DecidableEq, Repr

/-- The value that a row of choices has for a label: the first of them counts. -/
def chosenValue? (choices : List Choice) (label : String) : Option Literal :=
  (choices.find? (·.label = label)).map (·.value)

/-- Pieces of an item with choices for its fields.  The identifier is that of the
    order line, once there is one. -/
structure Selection where
  id : Option Uuid := none
  itemId : Uuid
  choices : List Choice := []
  quantity : UInt32 := 1
  deriving DecidableEq, Repr

namespace Selection

/-- The value chosen for a label. -/
def valueOf? (s : Selection) (label : String) : Option Literal := chosenValue? s.choices label

/-- The selection as that of an order line. -/
def withId (s : Selection) (id : Uuid) : Selection := { s with id := some id }

end Selection

/-! ### Stock

Amounts that are left, as text, by the choice for one field; which field says how much
a piece consumes; and multipliers of that by the choices for at most two more fields. -/

/-- The name that says that stock is one amount for the whole item. -/
def noDependency : String := "none"

/-- The name that says that an order takes one unit for each piece. -/
def onePerOrder : String := "1_per_order"

/-- The key of the one amount of an item whose stock is not split. -/
def unnamedKey : String := ""

/-- Amounts that are left, by the choice they are kept for. -/
abbrev AmountTable := Table Literal

/-- The field by whose choice stock is split, and the amounts. -/
structure StockSource where
  name : String := noDependency
  amounts : AmountTable := ∅
  deriving DecidableEq, Repr

/-- What the choice for the first field multiplies by: a figure, or a figure for each
    choice of the second field. -/
inductive MultiplierEntry where
  | flat (l : Literal)
  | nested (t : Table Literal)
  deriving DecidableEq, Repr

/-- The fields whose choices multiply what is consumed, and the multipliers. -/
structure StockMultiplier where
  names : List String := []
  amounts : Table MultiplierEntry := ∅
  deriving DecidableEq, Repr

/-- How the stock of an item is kept. -/
structure Stock where
  isTracked : Bool := false
  dependsOn : StockSource := {}
  /-- The label of the field whose value is consumed. -/
  decrementer : String := onePerOrder
  multiplier : StockMultiplier := {}
  deriving DecidableEq, Repr

namespace Stock

/-- Whether stock is one amount of which every piece takes one unit. -/
def isSingleUnit (s : Stock) : Bool :=
  s.dependsOn.name = noDependency && s.decrementer = onePerOrder

def amounts (s : Stock) : AmountTable := s.dependsOn.amounts

def withAmounts (s : Stock) (amounts : AmountTable) : Stock :=
  { s with dependsOn := { s.dependsOn with amounts } }

end Stock

/-! ### Items

What identifies one, its fields in order, its tax rate in percent, and its stock with a
version that every write of stock raises. -/

structure Item where
  id : Uuid
  name : String
  categoryId : Option Int64 := none
  fields : List Field := []
  /-- The tax rate in percent, where the item has one of its own. -/
  taxRate : Option Decimal := none
  stock : Stock := {}
  version : UInt64 := 0
  deriving DecidableEq, Repr

namespace Item

/-- The tax rate of the item, or else the given one. -/
def taxRateOr (item : Item) (default : Decimal) : Decimal := item.taxRate.getD default

/-- Whether an item comes before or with another: by name, then by identifier. -/
def le (a b : Item) : Bool := a.name < b.name || (a.name = b.name && a.id.le b.id)

end Item

end PointOfSale

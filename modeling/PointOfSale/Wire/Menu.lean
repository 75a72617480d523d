/-
  PointOfSale/Wire/Menu.lean
  ==========================
  **Fields, choices, stock and items in JSON.**  A field that is missing in a record
  takes its default, but is not `null` unless it may be; the pricing of a field may
  stand under either of two keys.  A multiplier of stock is a scalar or an object of
  scalars.
-/
import PointOfSale.Menu
import PointOfSale.Wire.Scalar

namespace PointOfSale

/-! ### Fields and their pricing -/

namespace PriceBy

def name : PriceBy → String
  | .constant => "Constant"
  | .perOption => "Per Option"
  | .optionValue => "Option Value"
  | .scaledOptionValue => "Scaled Option Value"
  | .dependency => "Dependency"
  | .input => "Input"
  | .unpriced => ""

def all : List PriceBy :=
  [.constant, .perOption, .optionValue, .scaledOptionValue, .dependency, .input, .unpriced]

def toJson (p : PriceBy) : Json := .string p.name

def ofJson? (j : Json) : Option PriceBy :=
  (Json.caseName? j).bind fun s => all.find? (·.name = s)

end PriceBy

namespace FieldKind

def name : FieldKind → String
  | .select => "select"
  | .textField => "textfield"
  | .other => "other"

/-- The form element of a name; a name that is not known is some other element. -/
def ofName (s : String) : FieldKind :=
  if s = "select" then .select else if s = "textfield" then .textField else .other

def toJson (k : FieldKind) : Json := .string k.name

def ofJson? (j : Json) : Option FieldKind := (Json.caseName? j).map ofName

end FieldKind

namespace PriceDependency

def toJson (d : PriceDependency) : Json :=
  .object [("name", .string d.source),
    ("values", Json.ofTable (Json.ofTable Literal.toJson) d.values)]

def ofJson? (j : Json) : Option PriceDependency := do
  match ← Json.fields? [["name"], ["values"]] j with
  | [name, values] =>
    return {
      source := ← Json.optional "" Json.string? name
      values := ← Json.optional ∅ (Json.table? (Json.table? Literal.ofJson?)) values }
  | _ => none

end PriceDependency

namespace Pricing

def toJson (p : Pricing) : Json :=
  .object [("affectsPrice", .bool p.affectsPrice),
    ("isBasePrice", .bool p.isBasePrice),
    ("priceFactor", .string p.factor),
    ("priceBy", p.priceBy.toJson),
    ("constantValue", p.constant.toJson),
    ("perOptionMapping", Json.ofTable Literal.toJson p.perOption),
    ("dependsOn", Json.ofOption PriceDependency.toJson p.dependsOn)]

def ofJson? (j : Json) : Option Pricing := do
  match ← Json.fields? [["affectsPrice"], ["isBasePrice"], ["priceFactor"], ["priceBy"],
      ["constantValue"], ["perOptionMapping"], ["dependsOn"]] j with
  | [affectsPrice, isBasePrice, factor, priceBy, constant, perOption, dependsOn] =>
    return {
      affectsPrice := ← Json.optional true Json.bool? affectsPrice
      isBasePrice := ← Json.optional false Json.bool? isBasePrice
      factor := ← Json.optional "+" Json.string? factor
      priceBy := ← Json.optional .unpriced PriceBy.ofJson? priceBy
      constant := ← Json.optional ⟨""⟩ Literal.ofJson? constant
      perOption := ← Json.optional ∅ (Json.table? Literal.ofJson?) perOption
      dependsOn := ← Json.optional none (Json.nullable? PriceDependency.ofJson?) dependsOn }
  | _ => none

end Pricing

namespace Field

/-- A field as a record; a placeholder is written only where there is one. -/
def toJson (f : Field) : Json :=
  let placeholder := match f.placeholder with
    | some s => [("placeholder", Json.string s)]
    | none => []
  .object ([("label", .string f.label), ("type", f.kind.toJson),
    ("options", Json.ofList .string f.options)] ++ placeholder ++
    [("pricing_config", f.pricing.toJson)])

def ofJson? (j : Json) : Option Field := do
  match ← Json.fields? [["label"], ["type"], ["options"], ["placeholder"],
      ["pricing_config", "pricingConfig"]] j with
  | [label, kind, options, placeholder, pricing] =>
    return {
      label := ← Json.required Json.string? label
      kind := ← Json.optional .select FieldKind.ofJson? kind
      options := ← Json.optional [] (Json.list? Json.string?) options
      placeholder := ← Json.optional none (Json.nullable? Json.string?) placeholder
      pricing := ← Json.optional {} Pricing.ofJson? pricing }
  | _ => none

end Field

/-! ### Choices and selections -/

namespace Choice

def toJson (c : Choice) : Json :=
  .object [("label", .string c.label), ("value", c.value.toJson)]

def ofJson? (j : Json) : Option Choice := do
  match ← Json.fields? [["label"], ["value"]] j with
  | [label, value] =>
    return {
      label := ← Json.required Json.string? label
      value := ← Json.optional ⟨""⟩ Literal.ofJson? value }
  | _ => none

end Choice

namespace Selection

def toJson (s : Selection) : Json :=
  .object [("id", Json.ofOption Uuid.toJson s.id),
    ("item_id", s.itemId.toJson),
    ("configurations", Json.ofList Choice.toJson s.choices),
    ("quantity", Json.nat s.quantity.toNat)]

def ofJson? (j : Json) : Option Selection := do
  match ← Json.fields? [["id"], ["item_id"], ["configurations"], ["quantity"]] j with
  | [id, itemId, choices, quantity] =>
    return {
      id := ← Json.optional none (Json.nullable? Uuid.ofJson?) id
      itemId := ← Json.required Uuid.ofJson? itemId
      choices := ← Json.optional [] (Json.list? Choice.ofJson?) choices
      quantity := ← Json.optional 1 Json.uint32? quantity }
  | _ => none

end Selection

/-! ### Stock -/

namespace StockSource

def toJson (s : StockSource) : Json :=
  .object [("name", .string s.name), ("amounts", Json.ofTable Literal.toJson s.amounts)]

def ofJson? (j : Json) : Option StockSource := do
  match ← Json.fields? [["name"], ["amounts"]] j with
  | [name, amounts] =>
    return {
      name := ← Json.optional noDependency Json.string? name
      amounts := ← Json.optional ∅ (Json.table? Literal.ofJson?) amounts }
  | _ => none

end StockSource

namespace MultiplierEntry

def toJson : MultiplierEntry → Json
  | flat l => l.toJson
  | nested t => Json.ofTable Literal.toJson t

def ofJson? (j : Json) : Option MultiplierEntry :=
  match Literal.ofJson? j with
  | some l => some (.flat l)
  | none => (Json.table? Literal.ofJson? j).map .nested

end MultiplierEntry

namespace StockMultiplier

def toJson (m : StockMultiplier) : Json :=
  .object [("names", Json.ofList .string m.names),
    ("amounts", Json.ofTable MultiplierEntry.toJson m.amounts)]

def ofJson? (j : Json) : Option StockMultiplier := do
  match ← Json.fields? [["names"], ["amounts"]] j with
  | [names, amounts] =>
    return {
      names := ← Json.optional [] (Json.list? Json.string?) names
      amounts := ← Json.optional ∅ (Json.table? MultiplierEntry.ofJson?) amounts }
  | _ => none

end StockMultiplier

namespace Stock

def toJson (s : Stock) : Json :=
  .object [("manageItemInventory", .bool s.isTracked),
    ("dependsOn", s.dependsOn.toJson),
    ("decrementer", .string s.decrementer),
    ("decrementDependsOn", s.multiplier.toJson)]

def ofJson? (j : Json) : Option Stock := do
  match ← Json.fields? [["manageItemInventory"], ["dependsOn"], ["decrementer"],
      ["decrementDependsOn"]] j with
  | [isTracked, dependsOn, decrementer, multiplier] =>
    return {
      isTracked := ← Json.optional false Json.bool? isTracked
      dependsOn := ← Json.optional {} StockSource.ofJson? dependsOn
      decrementer := ← Json.optional onePerOrder Json.string? decrementer
      multiplier := ← Json.optional {} StockMultiplier.ofJson? multiplier }
  | _ => none

end Stock

/-! ### Items -/

namespace Item

def toJson (item : Item) : Json :=
  .object [("id", item.id.toJson),
    ("name", .string item.name),
    ("category_id", Json.ofOption (fun c : Int64 => Json.int c.toInt) item.categoryId),
    ("form_cfg", Json.ofList Field.toJson item.fields),
    ("tax_rate", Json.ofOption Decimal.toJson item.taxRate),
    ("inventory", item.stock.toJson),
    ("inventory_version", Json.nat item.version.toNat)]

def ofJson? (j : Json) : Option Item := do
  match ← Json.fields? [["id"], ["name"], ["category_id"], ["form_cfg"], ["tax_rate"],
      ["inventory"], ["inventory_version"]] j with
  | [id, name, categoryId, fields, taxRate, stock, version] =>
    return {
      id := ← Json.required Uuid.ofJson? id
      name := ← Json.required Json.string? name
      categoryId := ← Json.optional none (Json.nullable? Json.int64?) categoryId
      fields := ← Json.optional [] (Json.list? Field.ofJson?) fields
      taxRate := ← Json.optional none (Json.nullable? Decimal.ofJson?) taxRate
      stock := ← Json.optional {} Stock.ofJson? stock
      version := ← Json.optional 0 Json.uint64? version }
  | _ => none

end Item

end PointOfSale

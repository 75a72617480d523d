/-
  PointOfSale/Wire/Order.lean
  ===========================
  **Quotes, order lines and ledger outcomes in JSON.**
-/
import PointOfSale.Ledger
import PointOfSale.Order.Line
import PointOfSale.Wire.Menu

namespace PointOfSale

namespace Quote

def toJson (q : Quote) : Json :=
  .object [("price", q.price.toJson), ("tax", q.tax.toJson), ("subtotal", q.subtotal.toJson)]

def ofJson? (j : Json) : Option Quote := do
  match ← Json.fields? [["price"], ["tax"], ["subtotal"]] j with
  | [price, tax, subtotal] =>
    return {
      price := ← Json.required Decimal.ofJson? price
      tax := ← Json.required Decimal.ofJson? tax
      subtotal := ← Json.required Decimal.ofJson? subtotal }
  | _ => none

end Quote

namespace Breakdown

def toJson (b : Breakdown) : Json :=
  .object [("base_price", b.base.toJson),
    ("multipliers", Json.ofList Decimal.toJson b.multipliers),
    ("adders", Json.ofList Decimal.toJson b.adders)]

def ofJson? (j : Json) : Option Breakdown := do
  match ← Json.fields? [["base_price"], ["multipliers"], ["adders"]] j with
  | [base, multipliers, adders] =>
    return {
      base := ← Json.required Decimal.ofJson? base
      multipliers := ← Json.required (Json.list? Decimal.ofJson?) multipliers
      adders := ← Json.required (Json.list? Decimal.ofJson?) adders }
  | _ => none

end Breakdown

namespace OrderLine

def toJson (l : OrderLine) : Json :=
  .object [("id", l.id.toJson),
    ("item_id", l.itemId.toJson),
    ("item_name", .string l.itemName),
    ("configurations", Json.ofList Choice.toJson l.choices),
    ("quantity", Json.nat l.quantity.toNat),
    ("price", l.price.toJson),
    ("tax", l.tax.toJson),
    ("created_at", l.createdAt.toJson),
    ("updated_at", l.updatedAt.toJson)]

def ofJson? (j : Json) : Option OrderLine := do
  match ← Json.fields? [["id"], ["item_id"], ["item_name"], ["configurations"], ["quantity"],
      ["price"], ["tax"], ["created_at"], ["updated_at"]] j with
  | [id, itemId, itemName, choices, quantity, price, tax, createdAt, updatedAt] =>
    return {
      id := ← Json.required Uuid.ofJson? id
      itemId := ← Json.required Uuid.ofJson? itemId
      itemName := ← Json.required Json.string? itemName
      choices := ← Json.required (Json.list? Choice.ofJson?) choices
      quantity := ← Json.required Json.uint32? quantity
      price := ← Json.required Decimal.ofJson? price
      tax := ← Json.required Decimal.ofJson? tax
      createdAt := ← Json.required Timestamp.ofJson? createdAt
      updatedAt := ← Json.required Timestamp.ofJson? updatedAt }
  | _ => none

end OrderLine

/-- A table of amounts in JSON. -/
def AmountTable.toJson (t : AmountTable) : Json := Json.ofTable Literal.toJson t

namespace LedgerOutcome

def toJson (o : LedgerOutcome) : Json :=
  .object [("inventory", o.stock.toJson), ("amounts", Json.ofTable AmountTable.toJson o.amounts)]

end LedgerOutcome

end PointOfSale

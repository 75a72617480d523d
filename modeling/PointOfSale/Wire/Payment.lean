/-
  PointOfSale/Wire/Payment.lean
  =============================
  **Summaries, tenders and transactions in JSON.**  A transaction is one flat
  record: the figures of its summary stand among its own.  It is read from an
  object only, and all that stands in the object has to have a value.
-/
import PointOfSale.Order.Settlement
import PointOfSale.Wire.Scalar

namespace PointOfSale

namespace Summary

/-- The keys of the totals. -/
def keys : List (List String) :=
  [["total_non_taxable"], ["total_taxable"], ["collected_tax"], ["total_amount"]]

/-- The totals as members of a record. -/
def members (s : Summary) : List (String × Json) :=
  [("total_non_taxable", s.nonTaxable.toJson), ("total_taxable", s.taxable.toJson),
    ("collected_tax", s.collectedTax.toJson), ("total_amount", s.total.toJson)]

def toJson (s : Summary) : Json := .object s.members

def ofJson? (j : Json) : Option Summary := do
  match ← Json.fields? keys j with
  | [nonTaxable, taxable, collectedTax, total] =>
    return {
      nonTaxable := ← Json.required Decimal.ofJson? nonTaxable
      taxable := ← Json.required Decimal.ofJson? taxable
      collectedTax := ← Json.required Decimal.ofJson? collectedTax
      total := ← Json.required Decimal.ofJson? total }
  | _ => none

end Summary

namespace PaymentMethod

def name : PaymentMethod → String
  | .cash => "Cash"
  | .card => "Card"
  | .cashThenCard => "Cash → Card"
  | .cardThenCash => "Card → Cash"

def all : List PaymentMethod := [.cash, .card, .cashThenCard, .cardThenCash]

def toJson (m : PaymentMethod) : Json := .string m.name

def ofJson? (j : Json) : Option PaymentMethod :=
  (Json.caseName? j).bind fun s => all.find? (·.name = s)

end PaymentMethod

namespace Tender

def toJson (t : Tender) : Json :=
  .object [("method", t.method.toJson), ("cash_paid", t.cash.toJson), ("card_paid", t.card.toJson)]

def ofJson? (j : Json) : Option Tender := do
  match ← Json.fields? [["method"], ["cash_paid"], ["card_paid"]] j with
  | [method, cash, card] =>
    return {
      method := ← Json.required PaymentMethod.ofJson? method
      cash := ← Json.optional Decimal.zero Decimal.ofJson? cash
      card := ← Json.optional Decimal.zero Decimal.ofJson? card }
  | _ => none

end Tender

namespace Transaction

def toJson (t : Transaction) : Json :=
  .object (("payment_method", t.method.toJson) :: t.summary.members ++
    [("cash_paid", t.cash.toJson), ("card_paid", t.card.toJson),
      ("change_given", t.change.toJson), ("transaction_date", t.date.toJson)])

/-- How deep the members of a transaction may nest. -/
def maxDepth : Nat := 127

def ofJson? (j : Json) : Option Transaction := do
  match j with
  | .object _ =>
    if !j.isUsable || maxDepth < j.depth then none
    else
      match ← Json.fields? [["payment_method"], ["cash_paid"], ["card_paid"], ["change_given"],
          ["transaction_date"]] j with
      | [method, cash, card, change, date] =>
        return {
          method := ← Json.required PaymentMethod.ofJson? method
          summary := ← Summary.ofJson? j
          cash := ← Json.required Decimal.ofJson? cash
          card := ← Json.required Decimal.ofJson? card
          change := ← Json.required Decimal.ofJson? change
          date := ← Json.required Timestamp.ofJson? date }
      | _ => none
  | _ => none

end Transaction

end PointOfSale

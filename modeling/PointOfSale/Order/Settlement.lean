/-
  PointOfSale/Order/Settlement.lean
  =================================
  **The total of an order, and paying for it** in cash, by card, or with one after
  the other.
-/
import PointOfSale.Decimal.Notation
import PointOfSale.Order.Line

namespace PointOfSale

/-! ### Totals

They are split by whether tax was charged.  A line without tax counts as not taxable;
the total amount is the sum of both parts. -/

structure Summary where
  nonTaxable : Decimal := Decimal.zero
  taxable : Decimal := Decimal.zero
  collectedTax : Decimal := Decimal.zero
  total : Decimal := Decimal.zero
  deriving DecidableEq, Repr

namespace Summary

def addLine (s : Summary) (l : OrderLine) : Except Overflow Summary := do
  if l.tax.isZero then
    return { s with nonTaxable := ← plus s.nonTaxable (← l.total) }
  else
    let taxable ← plus s.taxable (← l.total)
    return { s with taxable, collectedTax := ← plus s.collectedTax (← l.totalTax) }

def ofLines (lines : List OrderLine) : Except Overflow Summary := do
  let s ← lines.foldlM addLine {}
  return { s with total := ← plus s.nonTaxable s.taxable }

end Summary

/-! ### Payments

All figures are rounded to two places first.  A payment with cash first that left change
counts as paid in cash; one with the card first that the card covered counts as paid by
card. -/

/-- How an order is paid. -/
inductive PaymentMethod where
  | cash
  | card
  /-- Cash first; the card pays the rest. -/
  | cashThenCard
  /-- The card first; cash pays the rest. -/
  | cardThenCash
  deriving DecidableEq, Repr

/-- What the customer offers. -/
structure Tender where
  method : PaymentMethod
  cash : Decimal := Decimal.zero
  card : Decimal := Decimal.zero
  deriving DecidableEq, Repr

structure Transaction where
  method : PaymentMethod
  summary : Summary
  cash : Decimal
  card : Decimal
  change : Decimal
  date : Timestamp
  deriving DecidableEq, Repr

/-- Why a tender is refused. -/
inductive Refusal where
  | insufficientPayment (required paid : Decimal)
  | cardOverpayment (card total : Decimal)
  deriving DecidableEq, Repr

def Refusal.message : Refusal → String
  | insufficientPayment required paid =>
    "Insufficient amount paid: required " ++ required.text ++ ", paid " ++ paid.text
  | cardOverpayment card total => "Card amount " ++ card.text ++ " exceeds total " ++ total.text

/-- Why there is no transaction. -/
inductive SettlementStop where
  | refused (r : Refusal)
  | overflowed (o : Overflow)
  deriving DecidableEq, Repr

namespace Settlement

/-- What is paid in which way, and the change. -/
structure Payment where
  method : PaymentMethod
  cash : Decimal
  card : Decimal
  change : Decimal
  deriving DecidableEq, Repr

/-- A calculation within a settlement. -/
def reckon {α : Type} : Except Overflow α → Except SettlementStop α
  | .ok a => .ok a
  | .error o => .error (.overflowed o)

/-- What is missing from `b` to `a`, never negative. -/
def shortfall (a b : Decimal) : Except SettlementStop Decimal :=
  (·.atLeast Decimal.zero) <$> reckon (minus a b)

/-- Pay in cash; what is too much is given back. -/
def payCash (total cash : Decimal) : Except SettlementStop Payment := do
  if cash < total then throw (.refused (.insufficientPayment total cash))
  return ⟨.cash, cash, Decimal.zero, ← reckon (minus cash total)⟩

/-- Pay the whole total by card. -/
def payCard (total : Decimal) : Payment := ⟨.card, Decimal.zero, total, Decimal.zero⟩

/-- Pay in cash and the rest by card. -/
def payCashThenCard (total cash : Decimal) : Except SettlementStop Payment := do
  if total < cash then return ⟨.cash, cash, Decimal.zero, ← reckon (minus cash total)⟩
  else return ⟨.cashThenCard, cash, ← reckon (minus total cash), Decimal.zero⟩

/-- Pay by card and the rest in cash. -/
def payCardThenCash (total cash card : Decimal) : Except SettlementStop Payment := do
  if total < card then throw (.refused (.cardOverpayment card total))
  let remaining ← shortfall total card
  if cash < remaining then throw (.refused (.insufficientPayment remaining cash))
  let change ← shortfall (← reckon (plus cash card)) total
  return ⟨if remaining.isZero then .card else .cardThenCash, cash, card, change⟩

/-- The payment for a total. -/
def pay (total : Decimal) (tender : Tender) : Except SettlementStop Payment :=
  let cash := roundMoney tender.cash
  match tender.method with
  | .card => .ok (payCard total)
  | .cash => payCash total cash
  | .cashThenCard => payCashThenCard total cash
  | .cardThenCash => payCardThenCash total cash (roundMoney tender.card)

end Settlement

/-- Settle an order with a tender. -/
def settle (summary : Summary) (tender : Tender) (now : Timestamp) :
    Except SettlementStop Transaction := do
  let p ← Settlement.pay (roundMoney summary.total) tender
  return {
    method := p.method
    summary
    cash := p.cash
    card := p.card
    change := p.change
    date := now }

end PointOfSale

/-
  PointOfSale/Order/Desk.lean
  ===========================
  **Order lines and stock together.**  The desk prices a selection and moves its
  stock: it quotes and previews without writing, and creates, edits and removes
  order lines with at most one write of stock each.
-/
import PointOfSale.ItemStore
import PointOfSale.Ledger
import PointOfSale.Order.Line

namespace PointOfSale

/-! ### Calls on the store

A call takes a snapshot of one item, evaluates it, and may write stock back.  The
snapshot is taken in a first step; evaluation and the guarded write are a second one,
so calls of several callers may interleave between the two. -/

/-- A call that concerns one item. -/
structure Call (α : Type) where
  itemId : Uuid
  /-- The answer to a snapshot, and the stock after it. -/
  evaluate : Item → Except Fault (α × Stock)
  /-- Whether the stock is written back. -/
  commits : Bool

namespace Call

variable {α : Type}

/-- The second step: evaluate a snapshot and write the stock into the store as it is
    by now. -/
def finish (call : Call α) (snapshot : Item) (store : ItemStore) :
    Except Fault (α × ItemStore) := do
  let (answer, stock) ← call.evaluate snapshot
  if call.commits then return (answer, ← store.commit snapshot stock)
  else return (answer, store)

/-- Both steps, with nothing in between. -/
def run (call : Call α) (store : ItemStore) : Except Fault (α × ItemStore) := do
  call.finish (← store.load call.itemId) store

/-- A call that only reports. -/
def report (itemId : Uuid) (evaluate : Item → Except Fault α) : Call α :=
  { itemId, commits := false, evaluate := fun item => (·, item.stock) <$> evaluate item }

/-- A call that writes back. -/
def committing (itemId : Uuid) (evaluate : Item → Except Fault (α × Stock)) : Call α :=
  { itemId, evaluate, commits := true }

end Call

/-! ### The desk -/

/-- What the desk works with. -/
structure Desk where
  ledger : Ledger := {}
  /-- The tax rate in percent of items that have none. -/
  defaultTaxRate : Decimal := Decimal.zero
  deriving DecidableEq, Repr

namespace Desk

/-- The quote for an item with choices. -/
def price (desk : Desk) (item : Item) (choices : List Choice) : Except Fault Quote :=
  Quote.evaluate item.fields choices (item.taxRateOr desk.defaultTaxRate)

/-- The price of one piece. -/
def quote (desk : Desk) (itemId : Uuid) (choices : List Choice) : Call Quote :=
  .report itemId fun item => desk.price item choices

/-- The amounts that taking a selection would leave; none for an item whose stock is
    not tracked. -/
def preview (desk : Desk) (s : Selection) : Call (Option AmountTable) :=
  .report s.itemId fun item => do
    let outcome ← desk.ledger.evaluate item.stock [s] Operation.take
    return outcome.amounts.values.head?

/-- Apply an operation for selections of one item, and write the stock back if asked
    to. -/
def adjust (desk : Desk) (itemId : Uuid) (selections : List Selection) (op : Operation)
    (commits : Bool) : Call (Table AmountTable) :=
  { itemId, commits
    evaluate := fun item => do
      let outcome ← desk.ledger.evaluate item.stock selections op
      return (outcome.amounts, outcome.stock) }

/-- Price a new order line and take its stock.  A line whose selection has no
    identifier gets the fresh one. -/
def create (desk : Desk) (s : Selection) (fresh : Uuid) (now : Timestamp) : Call OrderLine :=
  .committing s.itemId fun item => do
    let quote ← desk.price item s.choices
    let id := s.id.getD fresh
    let outcome ← desk.ledger.evaluate item.stock [s.withId id] Operation.take
    return (.ofSelection id item (s.withId id) quote now, outcome.stock)

/-- Price an edited order line, put its old stock back and take the new. -/
def update (desk : Desk) (line : OrderLine) (choices : List Choice) (quantity : UInt32)
    (now : Timestamp) : Call OrderLine :=
  .committing line.itemId fun item => do
    let quote ← desk.price item choices
    let updated := line.reprice choices quantity quote now
    let returned ← desk.ledger.evaluate item.stock [line.selection] Operation.putBack
    let outcome ← desk.ledger.evaluate returned.stock [updated.selection] Operation.take
    return (updated, outcome.stock)

/-- Put the stock of a removed order line back. -/
def delete (desk : Desk) (line : OrderLine) : Call LedgerOutcome :=
  .committing line.itemId fun item => do
    let outcome ← desk.ledger.evaluate item.stock [line.selection] Operation.putBack
    return (outcome, outcome.stock)

end Desk

end PointOfSale

/-
  PointOfSale/Ledger.lean
  =======================
  **Movements of stock.**  A selection moves one amount of an item's stock: which
  one, and by how much, follows from the choices and the item's stock rules.
  The ledger applies an operation for each selection in turn, each on the stock
  that the one before it left, and reports the amounts after each.

  Of several choices with one label the last counts here.  Every choice for the
  consumed field has to be a number, whether it counts or not.
-/
import PointOfSale.Decimal.Notation
import PointOfSale.Literal
import PointOfSale.Menu
import PointOfSale.Operation

namespace PointOfSale

/-- The amount that a selection moves, and under which key. -/
structure Movement where
  key : String
  amount : Decimal
  deriving DecidableEq, Repr

namespace Movement

/-! ### Reading the choices -/

/-- What the choices of a selection say about its movement. -/
structure Reading where
  amount : Decimal := Decimal.one
  key : Option String := none
  first : Option String := none
  second : Option String := none
  deriving DecidableEq, Repr

/-- Take in the value of a field that picks a multiplier: the first or the second of
    at most two; a label that is both counts as the first. -/
def Reading.pick (r : Reading) (names : List String) (c : Choice) : Reading :=
  match (names.take 2).findIdx? (· = c.label) with
  | some 0 => { r with first := some c.value.text }
  | some _ => { r with second := some c.value.text }
  | none => r

def Reading.step (stock : Stock) (r : Reading) (c : Choice) : Except Fault Reading := do
  let amount ← if c.label = stock.decrementer then c.value.number else pure r.amount
  let key := if c.label = stock.dependsOn.name then some c.value.text else r.key
  return { r with amount, key }.pick stock.multiplier.names c

/-- What all choices say, later ones over earlier ones. -/
def Reading.ofChoices (stock : Stock) (choices : List Choice) : Except Fault Reading :=
  choices.foldlM (Reading.step stock) {}

/-! ### Key and amount -/

/-- The key of the amount that is moved. -/
def keyOf (stock : Stock) (r : Reading) : Except Fault String :=
  if stock.dependsOn.name = noDependency then .ok unnamedKey
  else
    match r.key with
    | some key => .ok key
    | none => .error (.selectionNotFound stock.dependsOn.name)

/-- The figure of the multiplier, where the table has one for the choices. -/
def multiplierEntry? (m : StockMultiplier) (r : Reading) : Option Literal := do
  match ← m.amounts.get? (← r.first) with
  | .flat l => return l
  | .nested t => t.get? (← r.second)

/-- The consumed amount, multiplied where a multiplier is found. -/
def multiplied (m : StockMultiplier) (r : Reading) : Except Fault Decimal :=
  match multiplierEntry? m r with
  | some l => do Operation.multiply.apply (← l.number) r.amount
  | none => .ok r.amount

/-- The movement of a selection.  Stock that is one amount loses one unit for each
    piece, whatever was chosen. -/
def ofSelection (stock : Stock) (s : Selection) : Except Fault Movement := do
  let quantity := Decimal.ofUInt32 s.quantity
  if stock.isSingleUnit then return ⟨unnamedKey, quantity⟩
  let reading ← Reading.ofChoices stock s.choices
  let key ← keyOf stock reading
  let amount ← multiplied stock.multiplier reading
  return ⟨key, ← Operation.multiply.apply quantity amount⟩

end Movement

/-! ### The ledger -/

/-- The key under which amounts are reported for a selection without an order line. -/
def defaultPreviewKey : String := "new"

/-- How movements are reported. -/
structure Ledger where
  previewKey : String := defaultPreviewKey
  deriving DecidableEq, Repr

/-- Stock after a run, with the amounts after each selection. -/
structure LedgerOutcome where
  stock : Stock
  amounts : Table AmountTable
  deriving DecidableEq, Repr

namespace Ledger

/-- The amounts after a movement.  The amount has to be there and to be a number. -/
def moveAmount (op : Operation) (amounts : AmountTable) (m : Movement) :
    Except Fault AmountTable := do
  let entry ← match amounts.get? m.key with
    | some l => pure l
    | none => throw (.unknownInventoryKey m.key)
  let available ← entry.number
  let updated ← op.apply m.amount available
  return amounts.insert m.key ⟨amountText (roundMoney updated)⟩

def move (op : Operation) (stock : Stock) (s : Selection) : Except Fault Stock := do
  let m ← Movement.ofSelection stock s
  return stock.withAmounts (← moveAmount op stock.amounts m)

/-- The key under which amounts are reported for a selection. -/
def keyOf (ledger : Ledger) (s : Selection) : String :=
  match s.id with
  | some id => id.text
  | none => ledger.previewKey

/-- The outcome after one more selection. -/
def step (ledger : Ledger) (op : Operation) (o : LedgerOutcome) (s : Selection) :
    Except Fault LedgerOutcome := do
  let stock ← move op o.stock s
  return ⟨stock, o.amounts.insert (ledger.keyOf s) stock.amounts⟩

/-- Apply an operation for every selection in order.  Stock that is not tracked stays
    as it is, and nothing is reported. -/
def evaluate (ledger : Ledger) (stock : Stock) (selections : List Selection) (op : Operation) :
    Except Fault LedgerOutcome :=
  if stock.isTracked then selections.foldlM (ledger.step op) ⟨stock, ∅⟩
  else .ok ⟨stock, ∅⟩

end Ledger

end PointOfSale

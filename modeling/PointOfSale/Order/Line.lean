/-
  PointOfSale/Order/Line.lean
  ===========================
  **Order lines**: pieces of an item at the price that was quoted for one.  The
  totals of a line are products that are not checked beforehand; where no
  decimal holds one, the calculation stops (`Overflow`).
-/
import PointOfSale.Decimal.Arithmetic
import PointOfSale.Menu
import PointOfSale.Pricing
import PointOfSale.Timestamp

namespace PointOfSale

/-- An arithmetic result that no decimal holds, where it was not expected. -/
inductive Overflow where
  | addition
  | subtraction
  | multiplication
  deriving DecidableEq, Repr

namespace Overflow

def message : Overflow → String
  | addition => "Addition overflowed"
  | subtraction => "Subtraction overflowed"
  | multiplication => "Multiplication overflowed"

/-- A result, or the overflow where there is none. -/
def orElse (o : Overflow) : Option Decimal → Except Overflow Decimal
  | some d => .ok d
  | none => .error o

end Overflow

def plus (a b : Decimal) : Except Overflow Decimal := Overflow.addition.orElse (a.add? b)

def minus (a b : Decimal) : Except Overflow Decimal := Overflow.subtraction.orElse (a.sub? b)

def times (a b : Decimal) : Except Overflow Decimal := Overflow.multiplication.orElse (a.mul? b)

/-- Pieces of an item in an order. -/
structure OrderLine where
  id : Uuid
  itemId : Uuid
  itemName : String
  choices : List Choice
  quantity : UInt32
  /-- The price of one piece, with tax. -/
  price : Decimal
  /-- The tax on one piece. -/
  tax : Decimal
  createdAt : Timestamp
  updatedAt : Timestamp
  deriving DecidableEq, Repr

namespace OrderLine

/-- The line for a selection of an item, at a quote. -/
def ofSelection (id : Uuid) (item : Item) (s : Selection) (quote : Quote) (now : Timestamp) :
    OrderLine :=
  { id
    itemId := item.id
    itemName := item.name
    choices := s.choices
    quantity := s.quantity
    price := quote.price
    tax := quote.tax
    createdAt := now
    updatedAt := now }

/-- The selection that a line stands for. -/
def selection (l : OrderLine) : Selection :=
  { id := some l.id, itemId := l.itemId, choices := l.choices, quantity := l.quantity }

/-- The line after an edit. -/
def reprice (l : OrderLine) (choices : List Choice) (quantity : UInt32) (quote : Quote)
    (now : Timestamp) : OrderLine :=
  { l with choices, quantity, price := quote.price, tax := quote.tax, updatedAt := now }

def total (l : OrderLine) : Except Overflow Decimal := times l.price (Decimal.ofUInt32 l.quantity)

def totalTax (l : OrderLine) : Except Overflow Decimal := times l.tax (Decimal.ofUInt32 l.quantity)

end OrderLine

end PointOfSale

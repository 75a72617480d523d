/-
  PointOfSale/Operation.lean
  ==========================
  **The three operations** that combine a figure into a running total: a price
  factor names one, and so does a movement of stock.  What can go wrong where
  prices are evaluated and stock is moved is a fault.
-/
import PointOfSale.Decimal.Arithmetic
import PointOfSale.Decimal.Notation
import PointOfSale.Text.Quoted
import PointOfSale.Uuid

namespace PointOfSale

/-- An operation on a running total. -/
inductive Operation where
  | add
  | subtract
  | multiply
  deriving DecidableEq, Repr

namespace Operation

/-- Stock goes back on the shelf. -/
def putBack : Operation := .add

/-- Stock is taken from the shelf. -/
def take : Operation := .subtract

/-- The operation that a token names; several tokens may name the same one. -/
def ofToken? (token : String) : Option Operation :=
  if token = "+" ∨ token = "add" ∨ token = "increment" then some .add
  else if token = "-" ∨ token = "subtract" ∨ token = "decrement" then some .subtract
  else if token = "×" ∨ token = "multiply" then some .multiply
  else none

def symbol : Operation → String
  | .add => "+"
  | .subtract => "-"
  | .multiply => "×"

/-- The operation that takes a movement of stock back. -/
def inverse : Operation → Operation
  | .add => .subtract
  | .subtract => .add
  | .multiply => .multiply

end Operation

/-! ### Faults

A fault is a cause; `Fault.message` is its wording. -/

/-- The cause of a failed evaluation. -/
inductive Fault where
  | unsupportedOperator (token : String)
  | invalidNumericLiteral (text : String)
  /-- A result that no decimal can hold. -/
  | numericOverflow (accumulator : Decimal) (operation : Operation) (value : Decimal)
  /-- A field priced by another field that does not say by which. -/
  | missingDependency (label : String)
  | itemNotFound (id : Uuid)
  /-- A field that needs the customer's choice and has none. -/
  | selectionNotFound (label : String)
  | unknownInventoryKey (key : String)
  /-- A write that rests on a stale snapshot. -/
  | inventoryConflict (id : Uuid) (expected found : UInt64)
  /-- A failure of the store itself. -/
  | storage (text : String)
  deriving DecidableEq

namespace Fault

def message : Fault → String
  | unsupportedOperator token => "Unsupported operator: " ++ Text.quoted token
  | invalidNumericLiteral text => "Invalid numeric literal: " ++ Text.quoted text
  | numericOverflow accumulator operation value =>
    "Numeric overflow evaluating " ++ accumulator.text ++ " " ++ operation.symbol ++ " " ++
      value.text
  | missingDependency label =>
    "Dependency pricing for field " ++ Text.quoted label ++ " has no dependency block"
  | itemNotFound id => "Item not found: " ++ id.text
  | selectionNotFound label => "No selection for field " ++ Text.quoted label
  | unknownInventoryKey key => "Unknown inventory key: " ++ Text.quoted key
  | inventoryConflict id expected found =>
    "Inventory for item " ++ id.text ++ " changed concurrently: expected version " ++
      toString expected.toNat ++ ", found " ++ toString found.toNat
  | storage text => "Storage error: " ++ text

end Fault

/-! ### Applying an operation

A result that no decimal holds is a fault that names both operands. -/

namespace Operation

/-- The decimal that an operation gives, if there is one. -/
def result? (op : Operation) (value accumulator : Decimal) : Option Decimal :=
  match op with
  | .add => accumulator.add? value
  | .subtract => accumulator.sub? value
  | .multiply => accumulator.mul? value

/-- Combine `value` into `accumulator`. -/
def apply (op : Operation) (value accumulator : Decimal) : Except Fault Decimal :=
  match op.result? value accumulator with
  | some d => .ok d
  | none => .error (.numericOverflow accumulator op value)

/-- The operation that a token names. -/
def parse (token : String) : Except Fault Operation :=
  match ofToken? token with
  | some op => .ok op
  | none => .error (.unsupportedOperator token)

end Operation

end PointOfSale

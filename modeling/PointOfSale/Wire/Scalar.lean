/-
  PointOfSale/Wire/Scalar.lean
  ============================
  **Scalars in JSON.**  Decimals are written as floating-point numbers and read
  from whole numbers, floating-point numbers and texts.  A literal is written as
  a text and read from any scalar, a number giving its text.
-/
import PointOfSale.Binary64
import PointOfSale.Json.Figure
import PointOfSale.Json.Record
import PointOfSale.Literal
import PointOfSale.Operation
import PointOfSale.Timestamp
import PointOfSale.Uuid

namespace PointOfSale

namespace Decimal

def toJson (d : Decimal) : Json := .number (.real d.toBinary64)

def ofJson? : Json → Option Decimal
  | .number (.whole i) => ofInt? i
  | .number (.real x) => ofBinary64? x
  | .string s => ofString? s
  | _ => none

end Decimal

namespace Literal

def toJson (l : Literal) : Json := .string l.text

def ofJson? : Json → Option Literal
  | .string s => some ⟨s⟩
  | .number n => some ⟨n.text⟩
  | .bool true => some ⟨"true"⟩
  | .bool false => some ⟨"false"⟩
  | .null => some ⟨""⟩
  | _ => none

end Literal

namespace Uuid

def toJson (u : Uuid) : Json := .string u.text

def ofJson? (j : Json) : Option Uuid := (Json.string? j).bind ofString?

end Uuid

namespace Timestamp

def toJson (t : Timestamp) : Json := .string t.text

def ofJson? (j : Json) : Option Timestamp := (Json.string? j).bind ofString?

end Timestamp

namespace Operation

def name : Operation → String
  | .add => "add"
  | .subtract => "subtract"
  | .multiply => "multiply"

def toJson (op : Operation) : Json := .string op.name

/-- Records know operations by one name only, and no tokens. -/
def ofJson? (j : Json) : Option Operation :=
  (Json.caseName? j).bind fun s => [add, subtract, multiply].find? (·.name = s)

end Operation

end PointOfSale

/-
  PointOfSale/Json/Record.lean
  ============================
  **Records in JSON.**  A record is an object with named fields, or an array of
  its fields in order whose end may be missing.  Keys that are not fields are
  passed over; a field that is given twice is refused.  A reader is a function
  `Json → Option α`; the ones here read scalars, lists and tables, and say what
  happens where a field is missing or `null`.
-/
import PointOfSale.Json.Basic
import PointOfSale.Table

namespace PointOfSale.Json

-- powers are the core ones, whatever else is in scope
attribute [local instance (high)] instPowNat

variable {α : Type}

/-! ### Fields -/

/-- The values of the members under any of the given keys. -/
def membersUnder (keys : List String) (members : List (String × Json)) : List Json :=
  (members.filter fun m => keys.contains m.1).map (·.2)

/-- The value of a field that has the given keys, `none` inside where there is none. -/
def member? (keys : List String) (members : List (String × Json)) : Option (Option Json) :=
  match membersUnder keys members with
  | [] => some none
  | [j] => some (some j)
  | _ => none

/-- The values of the fields of a record, in order.  Each field is given by the keys
    under which it may stand. -/
def fields? (keys : List (List String)) : Json → Option (List (Option Json))
  | .object members => keys.mapM (member? · members)
  | .array items =>
    if items.length ≤ keys.length then
      some (items.map some ++ List.replicate (keys.length - items.length) none)
    else none
  | _ => none

/-- A field that has to be there. -/
def required (read : Json → Option α) : Option Json → Option α
  | some j => read j
  | none => none

/-- A field that may be missing. -/
def optional (default : α) (read : Json → Option α) : Option Json → Option α
  | some j => read j
  | none => some default

/-! ### Readers -/

/-- A value or `null`. -/
def nullable? (read : Json → Option α) : Json → Option (Option α)
  | .null => some none
  | j => (read j).map some

def bool? : Json → Option Bool
  | .bool b => some b
  | _ => none

def string? : Json → Option String
  | .string s => some s
  | _ => none

def whole? : Json → Option Int
  | .number (.whole i) => some i
  | _ => none

/-- A count of 32 bits. -/
def uint32? (j : Json) : Option UInt32 :=
  (whole? j).bind fun i =>
    if 0 ≤ i ∧ i < 2 ^ (32 : Nat) then some (UInt32.ofNat i.toNat) else none

/-- A count of 64 bits. -/
def uint64? (j : Json) : Option UInt64 :=
  (whole? j).bind fun i =>
    if 0 ≤ i ∧ i < 2 ^ (64 : Nat) then some (UInt64.ofNat i.toNat) else none

/-- A number of 64 bits with a sign. -/
def int64? (j : Json) : Option Int64 :=
  (whole? j).bind fun i =>
    if -2 ^ (63 : Nat) ≤ i ∧ i < 2 ^ (63 : Nat) then some (Int64.ofInt i) else none

def list? (read : Json → Option α) : Json → Option (List α)
  | .array items => items.mapM read
  | _ => none

/-- An object as a table; of members with one key the last stays. -/
def table? (read : Json → Option α) : Json → Option (Table α)
  | .object members =>
    (members.mapM fun m => (read m.2).map fun a => (m.1, a)).map Table.ofList
  | _ => none

/-- The name of a case: a text, or an object whose one key it is, with `null` under
    it. -/
def caseName? : Json → Option String
  | .string s => some s
  | .object [(name, .null)] => some name
  | _ => none

/-! ### Writers -/

def ofOption (write : α → Json) : Option α → Json
  | some a => write a
  | none => .null

def ofTable (write : α → Json) (t : Table α) : Json :=
  .object (t.entries.map fun e => (e.1, write e.2))

def ofList (write : α → Json) (as : List α) : Json := .array (as.map write)

end PointOfSale.Json

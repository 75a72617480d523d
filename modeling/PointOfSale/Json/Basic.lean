/-
  PointOfSale/Json/Basic.lean
  ===========================
  **JSON values** — the form in which catalogs, selections and answers are
  written down.  An object is the list of its members in the order of the text,
  repeated keys included: what a repeated key means is for the reader of a
  particular record to say.
-/
import PointOfSale.Binary64

namespace PointOfSale

/-- A number of a JSON text: a whole number of 64 bits as it is, any other as the
    nearest floating-point value. -/
inductive Figure where
  | whole (i : Int)
  | real (x : Binary64)
  deriving DecidableEq

/-- A JSON value. -/
inductive Json where
  | null
  | bool (b : Bool)
  | number (n : Figure)
  | string (s : String)
  | array (items : List Json)
  | object (members : List (String × Json))
  /-- What is well formed and has no value: a number beyond the greatest, a text with
      one half of a surrogate pair, or an object with such a text for a key. -/
  | unusable
  deriving Inhabited

namespace Json

def int (i : Int) : Json := .number (.whole i)

def nat (n : Nat) : Json := int n

mutual

/-- Whether every part has a value. -/
def isUsable : Json → Bool
  | .array items => itemsUsable items
  | .object members => membersUsable members
  | .unusable => false
  | _ => true

def itemsUsable : List Json → Bool
  | [] => true
  | j :: js => isUsable j && itemsUsable js

def membersUsable : List (String × Json) → Bool
  | [] => true
  | (_, j) :: ms => isUsable j && membersUsable ms

end

mutual

/-- How many arrays and objects lie inside one another. -/
def depth : Json → Nat
  | .array items => itemsDepth items + 1
  | .object members => membersDepth members + 1
  | _ => 0

def itemsDepth : List Json → Nat
  | [] => 0
  | j :: js => max (depth j) (itemsDepth js)

def membersDepth : List (String × Json) → Nat
  | [] => 0
  | (_, j) :: ms => max (depth j) (membersDepth ms)

end

/-- Keep of each key the last member. -/
def lastMembers : List (String × Json) → List (String × Json)
  | [] => []
  | (k, v) :: ms => if ms.any (·.1 = k) then lastMembers ms else (k, v) :: lastMembers ms

mutual

/-- The value in which every object keeps, of a repeated key, the last member. -/
def withoutRepeats : Json → Json
  | .array items => .array (itemsWithoutRepeats items)
  | .object members => .object (lastMembers (membersWithoutRepeats members))
  | j => j

def itemsWithoutRepeats : List Json → List Json
  | [] => []
  | j :: js => withoutRepeats j :: itemsWithoutRepeats js

def membersWithoutRepeats : List (String × Json) → List (String × Json)
  | [] => []
  | (k, j) :: ms => (k, withoutRepeats j) :: membersWithoutRepeats ms

end

/-- The member of an object with a given key, the last if there are several. -/
def get? (j : Json) (key : String) : Option Json :=
  match j with
  | .object members => (members.reverse.find? (·.1 = key)).map (·.2)
  | _ => none

/-- The member of an object with a given key; `null` where there is none. -/
def get (j : Json) (key : String) : Json := (j.get? key).getD .null

end Json

end PointOfSale

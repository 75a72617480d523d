/-
  PointOfSale/Settings/Address.lean
  =================================
  **Where a setting stands.**  A key of the outermost level may be an address: a
  name, then further names behind points and positions in brackets, as in
  `engine.preview_key` or `engine[1]`.  A position below zero counts from the end.

  Changing what stands at an address makes way for it: what is no section on the
  way becomes one, what is no list becomes one, and a list grows as far as the
  position lies outside.
-/
import PointOfSale.Json.Basic
import PointOfSale.Text.Basic

namespace PointOfSale.Settings

-- powers are the core ones, whatever else is in scope
attribute [local instance (high)] instPowNat

/-- One step of an address. -/
inductive Step where
  | name (key : String)
  | position (i : Int)
  deriving DecidableEq, Repr

/-- The way from the outermost section to a setting. -/
abbrev Address := List Step

namespace Address

/-! ### Reading -/

/-- Whether a character may stand in a name. -/
def isNameChar (c : Char) : Bool := c.isAlphanum || c = '_' || c = '-'

/-- Whether a character may surround a position. -/
def isSpace (c : Char) : Bool := c = ' ' || c = '\t'

def natural? (cs : List Char) : Option Nat :=
  if cs.isEmpty then none else (Text.digits? cs).map (Text.ofDigits 10)

/-- Read a position of 64 bits, with spaces around it. -/
def position? (cs : List Char) : Option Int := do
  let i : Int ←
    match ((cs.dropWhile isSpace).reverse.dropWhile isSpace).reverse with
    | '-' :: digits => (natural? digits).map fun n => -(n : Int)
    | digits => (natural? digits).map fun n => (n : Int)
  if -2 ^ (63 : Nat) ≤ i ∧ i < 2 ^ (63 : Nat) then return i else none

/-- Read what stands in front of a closing bracket: an opening one and a position. -/
def bracketed? : List Char → Option Step
  | '[' :: cs => (position? cs).map Step.position
  | _ => none

/-- Read a row of positions, each in brackets. -/
def positions? (cs : List Char) : Option (List Step) :=
  let pieces := Text.pieces ']' cs
  if pieces.getLast? = some [] then pieces.dropLast.mapM bracketed? else none

/-- Read a name with the positions behind it. -/
def part? (cs : List Char) : Option (List Step) :=
  let name := cs.takeWhile isNameChar
  if name.isEmpty then none
  else (positions? (cs.dropWhile isNameChar)).map (.name (String.ofList name) :: ·)

/-- The address that a key denotes; a key that is none is one name. -/
def ofKey (key : String) : Address :=
  match (Text.pieces '.' key.toList).mapM part? with
  | some parts => parts.flatten
  | none => [.name key]

/-! ### Changing what is there -/

/-- The members of a section; a value that is none has no members. -/
def membersOf : Json → List (String × Json)
  | .object members => members
  | _ => []

/-- The items of a list; a value that is none has no items. -/
def itemsOf : Json → List Json
  | .array items => items
  | _ => []

/-- Members with one changed, in its place if it is there; else `null` is changed. -/
def changeMember (key : String) (change : Json → Json) :
    List (String × Json) → List (String × Json)
  | [] => [(key, change .null)]
  | m :: ms => if m.1 = key then (key, change m.2) :: ms else m :: changeMember key change ms

/-- Items with one changed; `null`s fill a list up to a position outside of it. -/
def changeItem (i : Int) (change : Json → Json) (items : List Json) : List Json :=
  let place := if i < 0 then items.length + i else i
  let before := List.replicate (-place).toNat Json.null
  let behind := List.replicate (place.toNat + 1 - items.length) Json.null
  (before ++ items ++ if place < 0 then [] else behind).modify place.toNat change

/-- A value with what stands at an address changed. -/
def update (change : Json → Json) : Address → Json → Json
  | [], j => change j
  | .name key :: steps, j => .object (changeMember key (update change steps) (membersOf j))
  | .position i :: steps, j => .array (changeItem i (update change steps) (itemsOf j))

end Address

/-! ### Settings over settings

Settings are JSON values, from whatever format they were read.  Sections merge member by
member, the later layer winning; any other value takes the place of what was there.  Keys
of the outermost level are addresses, keys further in are plain names. -/

mutual

/-- A value over another. -/
def merge (base : Json) : Json → Json
  | .object members => .object (mergeMembers (Address.membersOf base) members)
  | j => j

def mergeMembers (base : List (String × Json)) : List (String × Json) → List (String × Json)
  | [] => base
  | (key, j) :: ms => mergeMembers (Address.changeMember key (fun old => merge old j) base) ms

end

/-- A layer over settings. -/
def overlay (base : Json) (layer : List (String × Json)) : Json :=
  layer.foldl (fun base m => (Address.ofKey m.1).update (fun old => merge old m.2) base) base

end PointOfSale.Settings

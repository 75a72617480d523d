/-
  PointOfSale/Timestamp.lean
  ==========================
  **Points in time**, to the second and in universal time, written as
  `2024-01-02T03:04:05Z`.  Reading accepts exactly the texts that writing
  produces, of dates that the calendar has.
-/
import PointOfSale.Text.Basic

namespace PointOfSale

/-- A date and a time of day. -/
structure Timestamp where
  year : Nat
  month : Nat
  day : Nat
  hour : Nat
  minute : Nat
  second : Nat
  deriving DecidableEq, Repr

namespace Timestamp

def epoch : Timestamp := ⟨1970, 1, 1, 0, 0, 0⟩

def isLeapYear (year : Nat) : Bool :=
  year % 4 = 0 && (year % 100 ≠ 0 || year % 400 = 0)

def daysOfMonth (year month : Nat) : Nat :=
  if month = 2 then (if isLeapYear year then 29 else 28)
  else if month = 4 ∨ month = 6 ∨ month = 9 ∨ month = 11 then 30
  else 31

/-- Whether the calendar and the clock have such a time; any minute may end with a
    leap second, its second 60. -/
def isValid (t : Timestamp) : Bool :=
  t.year < 10000 && 1 ≤ t.month && t.month ≤ 12 && 1 ≤ t.day &&
    t.day ≤ daysOfMonth t.year t.month && t.hour < 24 && t.minute < 60 && t.second ≤ 60

def chars (t : Timestamp) : List Char :=
  let pair := Text.lastDigits 10 2
  Text.lastDigits 10 4 t.year ++ '-' :: pair t.month ++ '-' :: pair t.day ++ 'T' :: pair t.hour ++
    ':' :: pair t.minute ++ ':' :: pair t.second ++ ['Z']

def text (t : Timestamp) : String := String.ofList t.chars

/-- The number that a group of digits denotes. -/
def group? (cs : List Char) : Option Nat := (Text.digits? cs).map (Text.ofDigits 10)

def ofChars? : List Char → Option Timestamp
  | [y₁, y₂, y₃, y₄, '-', o₁, o₂, '-', d₁, d₂, 'T', h₁, h₂, ':', m₁, m₂, ':', s₁, s₂, 'Z'] => do
    let t : Timestamp := {
      year := ← group? [y₁, y₂, y₃, y₄]
      month := ← group? [o₁, o₂]
      day := ← group? [d₁, d₂]
      hour := ← group? [h₁, h₂]
      minute := ← group? [m₁, m₂]
      second := ← group? [s₁, s₂] }
    if t.isValid then some t else none
  | _ => none

def ofString? (s : String) : Option Timestamp := ofChars? s.toList

end Timestamp

end PointOfSale

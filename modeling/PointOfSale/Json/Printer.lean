/-
  PointOfSale/Json/Printer.lean
  =============================
  **Writing JSON**, in one line without spaces, or laid out with one item or
  member a line and two spaces for each level.  Members keep their order.
-/
import PointOfSale.Json.Figure

namespace PointOfSale.Json

/-- A character in a quoted text.  Only what has to be escaped is. -/
def quoteChar (c : Char) : List Char :=
  if c = '"' then ['\\', '"']
  else if c = '\\' then ['\\', '\\']
  else if c = '\x08' then ['\\', 'b']
  else if c = '\x0c' then ['\\', 'f']
  else if c = '\n' then ['\\', 'n']
  else if c = '\r' then ['\\', 'r']
  else if c = '\t' then ['\\', 't']
  else if c.toNat < 0x20 then ['\\', 'u', '0', '0'] ++ Text.lastDigits 16 2 c.toNat
  else [c]

def quote (s : String) : List Char := '"' :: s.toList.flatMap quoteChar ++ ['"']

def separated (texts : List (List Char)) : List Char := List.intercalate [','] texts

/-- A scalar; a value that has none is written as `null`. -/
def scalarChars : Json → List Char
  | .bool true => "true".toList
  | .bool false => "false".toList
  | .number n => n.chars
  | .string s => quote s
  | _ => "null".toList

/-! ### One line -/

mutual

/-- A value in one line. -/
def compact : Json → List Char
  | .array items => '[' :: separated (compactItems items) ++ [']']
  | .object members => '\x7b' :: separated (compactMembers members) ++ ['\x7d']
  | j => scalarChars j

def compactItems : List Json → List (List Char)
  | [] => []
  | j :: js => compact j :: compactItems js

def compactMembers : List (String × Json) → List (List Char)
  | [] => []
  | (key, j) :: ms => (quote key ++ ':' :: compact j) :: compactMembers ms

end

def compactText (j : Json) : String := String.ofList j.compact

/-! ### Laid out -/

/-- A new line with the indentation of a level. -/
def newLine (level : Nat) : List Char := '\n' :: List.replicate (2 * level) ' '

/-- Texts on lines of their own, one level in, between brackets. -/
def bracketed (first last : Char) (level : Nat) (texts : List (List Char)) : List Char :=
  if texts.isEmpty then [first, last]
  else first :: separated (texts.map (newLine (level + 1) ++ ·)) ++ newLine level ++ [last]

mutual

/-- A value laid out at a level. -/
def pretty (level : Nat) : Json → List Char
  | .array items => bracketed '[' ']' level (prettyItems (level + 1) items)
  | .object members => bracketed '\x7b' '\x7d' level (prettyMembers (level + 1) members)
  | j => scalarChars j

def prettyItems (level : Nat) : List Json → List (List Char)
  | [] => []
  | j :: js => pretty level j :: prettyItems level js

def prettyMembers (level : Nat) : List (String × Json) → List (List Char)
  | [] => []
  | (key, j) :: ms => (quote key ++ ':' :: ' ' :: pretty level j) :: prettyMembers level ms

end

def prettyText (j : Json) : String := String.ofList (j.pretty 0)

end PointOfSale.Json

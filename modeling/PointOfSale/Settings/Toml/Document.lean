/-
  PointOfSale/Settings/Toml/Document.lean
  =======================================
  **Settings in TOML.**  A line is blank, opens a table or a further table of a
  list, or gives a key a value; a comment may end it.
-/
import PointOfSale.Json.Basic
import PointOfSale.Settings.Toml.Scalar

namespace PointOfSale.Toml

/-! ### Tables that grow

A TOML text fills its tables piece by piece, and how a table came about decides what may
still be added to it: no key is set twice, no table is opened twice, a value written in one
piece is closed, and keys with points do not reach into tables that a header opened. -/

/-- How a table came about. -/
inductive Origin where
  /-- A header opened it. -/
  | opened
  /-- It lies on the way to a table that a header opened. -/
  | passed
  /-- It lies on the way to a key with points. -/
  | dotted
  deriving DecidableEq, Repr

/-- What a name stands for. -/
inductive Node where
  /-- A value, closed. -/
  | value (j : Json)
  | table (origin : Origin) (members : List (String × Node))
  /-- A list of tables, each opened by a header. -/
  | tables (items : List Node)

/-- The names of a table with what they stand for. -/
abbrev Members := List (String × Node)

mutual

/-- The value that has grown. -/
def Node.toJson : Node → Json
  | .value j => j
  | .table _ members => .object (membersToJson members)
  | .tables items => .array (nodesToJson items)

def nodesToJson : List Node → List Json
  | [] => []
  | n :: ns => n.toJson :: nodesToJson ns

def membersToJson : List (String × Node) → List (String × Json)
  | [] => []
  | (name, n) :: ms => (name, n.toJson) :: membersToJson ms

end

namespace Members

/-- Change what a name stands for; where there is none, `none` is changed. -/
def adjust? (name : String) (change : Option Node → Option Node) : Members → Option Members
  | [] => (change none).map fun n => [(name, n)]
  | m :: ms =>
    if m.1 = name then (change (some m.2)).map fun n => (name, n) :: ms
    else (adjust? name change ms).map (m :: ·)

/-- Change the members of a table. -/
def inTable? (change : Members → Option Members) : Node → Option Node
  | .table origin members => (change members).map (.table origin)
  | _ => none

/-- Go through what a name on the way stands for: a table, the last of a list of
    tables, or a new table. -/
def enter? (byHeader : Bool) (change : Members → Option Members) : Option Node → Option Node
  | none => (change []).map (.table (if byHeader then .passed else .dotted))
  | some (.table origin members) =>
    if !byHeader && origin = .opened then none else inTable? change (.table origin members)
  | some (.tables items) => do
    return .tables (items.dropLast ++ [← inTable? change (← items.getLast?)])
  | some (.value _) => none

/-- Go along the names of a header and change what the last leads to. -/
def within? (change : Members → Option Members) : List String → Members → Option Members
  | [], members => change members
  | name :: names, members => adjust? name (enter? true (within? change names)) members

/-- Set a name that stands for nothing yet. -/
def set? (name : String) (j : Json) : Members → Option Members :=
  adjust? name fun old => if old.isSome then none else some (.value j)

/-- Set the last name of a key with points. -/
def setKey? (j : Json) : List String → Members → Option Members
  | [], _ => none
  | [name], members => set? name j members
  | [table, name], members =>
    adjust? table (fun
      | none => (set? name j []).map (.table .dotted)
      | some (.table .dotted inner) => (set? name j inner).map (.table .dotted)
      | some _ => none) members
  | table :: names, members => adjust? table (enter? false (setKey? j names)) members

/-- Open the table of a header. -/
def openTable? (names : List String) : Members → Option Members :=
  within? (adjust? (names.getLast?.getD "") fun
    | none => some (.table .opened [])
    | some (.table .passed members) => some (.table .opened members)
    | some _ => none) names.dropLast

/-- Open a further table of the list of a header. -/
def appendTable? (names : List String) : Members → Option Members :=
  within? (adjust? (names.getLast?.getD "") fun
    | none => some (.tables [.table .opened []])
    | some (.tables items) => some (.tables (items ++ [.table .opened []]))
    | some _ => none) names.dropLast

end Members

/-! ### Values

Texts, numbers, truth values, dates and times, lists, and tables written in one piece.  A
list or table may run over several lines, with comments between its parts and a comma
behind the last. -/

/-- Whether a character may stand in a value without quotation marks. -/
def isWordChar (c : Char) : Bool :=
  !isSpace c && !(['#', ',', ']', '\x7d', '\n', '\r'].contains c)

/-- The value of a word. -/
def word? (word : List Char) : Option Json :=
  if word = "true".toList then some (.bool true)
  else if word = "false".toList then some (.bool false)
  else
    match number? word with
    | some j => some j
    | none => (moment? word).map fun cs => .string (String.ofList cs)

/-- Read a word; a date and a time of day make one, with a space between them. -/
def bare (cs : List Char) : List Char × List Char :=
  let (word, rest) := cs.span isWordChar
  match rest with
  | ' ' :: c :: more =>
    if (date? word).isSome && c.isDigit then
      (word ++ ' ' :: (c :: more).takeWhile isWordChar, (c :: more).dropWhile isWordChar)
    else (word, rest)
  | _ => (word, rest)

/-- Read a value that has no parts. -/
def scalar? (cs : List Char) : Option (Json × List Char) :=
  match cs with
  | '"' :: _ | '\x27' :: _ =>
    (text? cs).map fun (text, rest) => (.string (String.ofList text), rest)
  | _ => (word? (bare cs).1).map fun j => (j, (bare cs).2)

mutual

/-- Read a value.  The count bounds how far values nest and how many parts they
    have. -/
def value? : (count : Nat) → List Char → Option (Json × List Char)
  | 0, _ => none
  | count + 1, '[' :: cs => do
    let (items, rest) ← items? count (← gap? false cs)
    return (.array items, rest)
  | count + 1, '\x7b' :: cs => do
    let (members, rest) ← pairs? count [] (← gap? false cs)
    return (.object (membersToJson members), rest)
  | _ + 1, cs => scalar? cs

/-- Read the rest of a list. -/
def items? : (count : Nat) → List Char → Option (List Json × List Char)
  | 0, _ => none
  | _ + 1, ']' :: cs => some ([], cs)
  | count + 1, cs => do
    let (j, rest) ← value? count cs
    match ← gap? false rest with
    | ',' :: rest =>
      let (js, rest) ← items? count (← gap? false rest)
      return (j :: js, rest)
    | ']' :: rest => return ([j], rest)
    | _ => none

/-- Read the rest of a table that has members already. -/
def pairs? : (count : Nat) → Members → List Char → Option (Members × List Char)
  | 0, _, _ => none
  | _ + 1, members, '\x7d' :: cs => some (members, cs)
  | count + 1, members, cs => do
    let (names, rest) ← key? cs
    match rest with
    | '=' :: rest =>
      let (j, rest) ← value? count (skip rest)
      let members ← Members.setKey? j names members
      match ← gap? false rest with
      | ',' :: rest => pairs? count members (← gap? false rest)
      | '\x7d' :: rest => return (members, rest)
      | _ => none
    | _ => none

end

/-! ### Statements -/

/-- What has been read. -/
structure Draft where
  members : Members := []
  /-- The names of the table that is open. -/
  current : List String := []

/-- Read the rest of a line on which nothing may follow but a comment. -/
def finish? (cs : List Char) : Option (List Char) :=
  match skip cs with
  | [] => some []
  | '#' :: cs =>
    match cs.dropWhile isTextChar with
    | [] => some []
    | rest => lineEnd? rest
  | rest => lineEnd? rest

/-- Read one statement and take it in. -/
def statement? (d : Draft) : List Char → Option (Draft × List Char)
  | '[' :: '[' :: cs => do
    let (names, rest) ← key? cs
    match rest with
    | ']' :: ']' :: rest => return (⟨← Members.appendTable? names d.members, names⟩, ← finish? rest)
    | _ => none
  | '[' :: cs => do
    let (names, rest) ← key? cs
    match rest with
    | ']' :: rest => return (⟨← Members.openTable? names d.members, names⟩, ← finish? rest)
    | _ => none
  | cs => do
    let (names, rest) ← key? cs
    match rest with
    | '=' :: rest =>
      let (j, rest) ← value? (2 * rest.length + 2) (skip rest)
      let members ← Members.within? (Members.setKey? j names) d.current d.members
      return ({ d with members }, ← finish? rest)
    | _ => none

/-- Read at most `count` statements. -/
def statements? : (count : Nat) → Draft → List Char → Option Draft
  | 0, d, cs => (gap? false cs).bind fun rest => if rest.isEmpty then some d else none
  | count + 1, d, cs => do
    match ← gap? false cs with
    | [] => return d
    | cs =>
      let (d, rest) ← statement? d cs
      statements? count d rest

/-- The settings of a text; a byte order mark at its start is passed over. -/
def ofText? (text : String) : Option Json := do
  let cs := match text.toList with
    | '\uFEFF' :: cs => cs
    | cs => cs
  let draft ← statements? cs.length {} cs
  return .object (membersToJson draft.members)

end PointOfSale.Toml

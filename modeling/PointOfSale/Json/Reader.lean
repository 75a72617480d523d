/-
  PointOfSale/Json/Reader.lean
  ============================
  **Reading JSON.**  `scan` goes over the characters of a text once, keeping in a
  mode what it is in the middle of: nothing, a bare word or number, a quoted text, an
  escape in a quoted text.  The tokens are then put together to a value.
-/
import PointOfSale.Json.Figure

namespace PointOfSale.Json

/-! ### Quoted texts

A quoted text is a row of pieces, characters and 16-bit units; units come from escapes by
number and have to join up in surrogate pairs. -/

/-- A piece of a quoted text. -/
inductive Piece where
  | char (c : Char)
  /-- A 16-bit unit written as four hexadecimal digits. -/
  | unit (code : Nat)
  deriving DecidableEq, Repr

def isHighSurrogate (code : Nat) : Bool := 0xD800 ≤ code && code < 0xDC00

def isLowSurrogate (code : Nat) : Bool := 0xDC00 ≤ code && code < 0xE000

/-- The character of a surrogate pair. -/
def pairChar (high low : Nat) : Char :=
  Char.ofNat (0x10000 + (high - 0xD800) * 0x400 + (low - 0xDC00))

/-- The character of a unit that is no surrogate. -/
def unitChar? (code : Nat) : Option Char :=
  if isHighSurrogate code || isLowSurrogate code then none else some (Char.ofNat code)

/-- The text of a row of pieces, or `none` if a surrogate has no partner. -/
def joinPieces : List Piece → Option (List Char)
  | [] => some []
  | .char c :: ps => (joinPieces ps).map (c :: ·)
  | [.unit code] => (unitChar? code).map ([·])
  | .unit code :: .char c :: ps => do
    let first ← unitChar? code
    (joinPieces (.char c :: ps)).map (first :: ·)
  | .unit high :: .unit low :: ps =>
    if isHighSurrogate high && isLowSurrogate low then
      (joinPieces ps).map (pairChar high low :: ·)
    else do
      let first ← unitChar? high
      (joinPieces (.unit low :: ps)).map (first :: ·)

/-! ### Tokens -/

/-- A token: punctuation, a text (`none` if it has no value), or another scalar. -/
inductive Token where
  | openObject
  | closeObject
  | openArray
  | closeArray
  | colon
  | comma
  | text (s : Option String)
  | scalar (j : Json)

def isSpace (c : Char) : Bool := c = ' ' || c = '\t' || c = '\n' || c = '\r'

def punctuation? (c : Char) : Option Token :=
  if c = '\x7b' then some .openObject
  else if c = '\x7d' then some .closeObject
  else if c = '[' then some .openArray
  else if c = ']' then some .closeArray
  else if c = ':' then some .colon
  else if c = ',' then some .comma
  else none

/-- The token of a bare word: one of the three words, or a number. -/
def bareToken? (cs : List Char) : Option Token :=
  if cs = "null".toList then some (.scalar .null)
  else if cs = "true".toList then some (.scalar (.bool true))
  else if cs = "false".toList then some (.scalar (.bool false))
  else (Figure.written? cs).map fun w =>
    match Figure.ofWritten? w with
    | some n => .scalar (.number n)
    | none => .scalar .unusable

def textToken (pieces : List Piece) : Token := .text ((joinPieces pieces).map String.ofList)

/-! ### Scanning -/

/-- What the scanner is in the middle of; pieces and characters are in reverse. -/
inductive Mode where
  | between
  | bare (seen : List Char)
  | quoted (seen : List Piece)
  | escaped (seen : List Piece)
  | coded (seen : List Piece) (left code : Nat)
  deriving DecidableEq, Repr

/-- What a character does between tokens: a token that it is, and the mode after it. -/
def start (c : Char) : List Token × Mode :=
  match punctuation? c with
  | some t => ([t], .between)
  | none =>
    if isSpace c then ([], .between)
    else if c = '"' then ([], .quoted [])
    else ([], .bare [c])

/-- Whether a character ends a bare word. -/
def endsBare (c : Char) : Bool := isSpace c || (punctuation? c).isSome || c = '"'

/-- The character that a one-letter escape stands for. -/
def escape? (c : Char) : Option Char :=
  if c = '"' ∨ c = '\\' ∨ c = '/' then some c
  else if c = 'b' then some '\x08'
  else if c = 'f' then some '\x0c'
  else if c = 'n' then some '\n'
  else if c = 'r' then some '\r'
  else if c = 't' then some '\t'
  else none

/-- The tokens of a text, from a mode on. -/
def scan : Mode → List Char → Option (List Token)
  | .between, [] => some []
  | .bare seen, [] => (bareToken? seen.reverse).map ([·])
  | .quoted _, [] => none
  | .escaped _, [] => none
  | .coded .., [] => none
  | .between, c :: cs => (scan (start c).2 cs).map ((start c).1 ++ ·)
  | .bare seen, c :: cs =>
    if endsBare c then do
      let word ← bareToken? seen.reverse
      (scan (start c).2 cs).map fun ts => word :: (start c).1 ++ ts
    else scan (.bare (c :: seen)) cs
  | .quoted seen, c :: cs =>
    if c = '"' then (scan .between cs).map (textToken seen.reverse :: ·)
    else if c = '\\' then scan (.escaped seen) cs
    else if c.toNat < 0x20 then none
    else scan (.quoted (.char c :: seen)) cs
  | .escaped seen, c :: cs =>
    if c = 'u' then scan (.coded seen 4 0) cs
    else
      match escape? c with
      | some e => scan (.quoted (.char e :: seen)) cs
      | none => none
  | .coded seen left code, c :: cs =>
    match Text.hexDigit? c with
    | some d =>
      if left ≤ 1 then scan (.quoted (.unit (code * 16 + d) :: seen)) cs
      else scan (.coded seen (left - 1) (code * 16 + d)) cs
    | none => none

/-! ### From tokens to a value

The tokens drive a machine whose stack holds the arrays and objects that are still open.
Its states say what may come next, so a comma is never followed by a closing bracket, and
nothing follows the value.

An object with a key that has no value is read to its end, so that it can be passed over,
but cannot be used as a whole. -/

/-- The members that an open object has, in reverse; `none` once one of its keys had
    no value. -/
abbrev Members := Option (List (String × Json))

/-- The members with one more. -/
def Members.add (done : Members) (key : Option String) (j : Json) : Members := do
  return (← key, j) :: (← done)

/-- The object that has the members. -/
def Members.close : Members → Json
  | some done => .object done.reverse
  | none => .unusable

/-- An array or object that waits for a value; what it has is in reverse. -/
inductive Frame where
  | items (done : List Json)
  | member (done : Members) (key : Option String)

/-- What the reader waits for, with the open arrays and objects around it. -/
inductive Reading where
  | value (stack : List Frame)
  /-- The first item of an array, or its end. -/
  | itemOrEnd (stack : List Frame)
  /-- The first key of an object, or its end. -/
  | keyOrEnd (stack : List Frame)
  /-- A key behind a comma. -/
  | key (done : Members) (stack : List Frame)
  /-- The colon behind a key. -/
  | colon (done : Members) (key : Option String) (stack : List Frame)
  /-- A comma or the end of an array. -/
  | afterItem (done : List Json) (stack : List Frame)
  /-- A comma or the end of an object. -/
  | afterMember (done : Members) (stack : List Frame)
  | complete (j : Json)

namespace Reading

/-- A value is put into the innermost open array or object. -/
def put (j : Json) : List Frame → Reading
  | [] => .complete j
  | .items done :: stack => .afterItem (j :: done) stack
  | .member done name :: stack => .afterMember (done.add name j) stack

/-- A token that begins a value. -/
def begin? (stack : List Frame) : Token → Option Reading
  | .openObject => some (.keyOrEnd stack)
  | .openArray => some (.itemOrEnd stack)
  | .text (some s) => some (put (.string s) stack)
  | .text none => some (put .unusable stack)
  | .scalar j => some (put j stack)
  | _ => none

def step? : Reading → Token → Option Reading
  | .value stack, t => begin? stack t
  | .itemOrEnd stack, .closeArray => some (put (.array []) stack)
  | .itemOrEnd stack, t => begin? (.items [] :: stack) t
  | .keyOrEnd stack, .closeObject => some (put (.object []) stack)
  | .keyOrEnd stack, .text name => some (.colon (some []) name stack)
  | .key done stack, .text name => some (.colon done name stack)
  | .colon done name stack, .colon => some (.value (.member done name :: stack))
  | .afterItem done stack, .comma => some (.value (.items done :: stack))
  | .afterItem done stack, .closeArray => some (put (.array done.reverse) stack)
  | .afterMember done stack, .comma => some (.key done stack)
  | .afterMember done stack, .closeObject => some (put done.close stack)
  | _, _ => none

end Reading

/-- The value that a row of tokens spells. -/
def ofTokens? (ts : List Token) : Option Json :=
  match ts.foldlM Reading.step? (.value []) with
  | some (.complete j) => some j
  | _ => none

def ofChars? (cs : List Char) : Option Json := (scan .between cs).bind ofTokens?

def ofString? (s : String) : Option Json := ofChars? s.toList

end PointOfSale.Json

/-
  PointOfSale/Settings/Toml/Scalar.lean
  =====================================
  **Texts, keys, numbers, dates and times in TOML.**  Every reader of texts and keys
  takes what it reads off the front and returns the rest; numbers, dates and times are
  read from words as a whole.
-/
import PointOfSale.Json.Figure
import PointOfSale.Text.Basic
import PointOfSale.Timestamp

namespace PointOfSale.Toml

-- powers are the core ones, whatever else is in scope
attribute [local instance (high)] instPowNat

open Text (digit? digits? hexDigit? ofDigits lastDigits)

/-! ### Characters -/

def isSpace (c : Char) : Bool := c = ' ' || c = '\t'

/-- Whether a character may stand in a text or a comment. -/
def isTextChar (c : Char) : Bool := c = '\t' || (0x20 ≤ c.toNat && c ≠ '\x7f')

/-- The rest of a line without the spaces at its start. -/
def skip (cs : List Char) : List Char := cs.dropWhile isSpace

/-- Read the end of a line. -/
def lineEnd? : List Char → Option (List Char)
  | '\n' :: cs => some cs
  | '\r' :: '\n' :: cs => some cs
  | _ => none

/-- Pass over spaces, ends of lines and comments. -/
def gap? (inComment : Bool) : List Char → Option (List Char)
  | [] => some []
  | '\r' :: '\n' :: cs => gap? false cs
  | c :: cs =>
    if c = '\n' then gap? false cs
    else if inComment then (if isTextChar c then gap? true cs else none)
    else if isSpace c then gap? false cs
    else if c = '#' then gap? true cs
    else some (c :: cs)

/-- The character with a code point in hexadecimal. -/
def codePoint? (digits : List Char) : Option Char := do
  let n := ofDigits 16 (← digits.mapM hexDigit?)
  if n.isValidChar then return Char.ofNat n else none

/-- The character that a letter behind a backslash stands for. -/
def escaped? (c : Char) : Option Char :=
  [('b', '\x08'), ('t', '\t'), ('n', '\n'), ('f', '\x0c'), ('r', '\r'), ('e', '\x1b'), ('"', '"'),
    ('\\', '\\')].lookup c

/-! ### Texts

A text stands between quotation marks, with escapes, or between apostrophes, as it is;
tripled marks let it run over several lines. -/

/-- Put a character in front of a text that was read. -/
def push (c : Char) (read : List Char × List Char) : List Char × List Char := (c :: read.1, read.2)

/-- Read a text of one line up to its closing mark, with escapes. -/
def basic? : List Char → Option (List Char × List Char)
  | [] => none
  | '"' :: cs => some ([], cs)
  | '\\' :: 'x' :: a :: b :: cs => do
    return push (← codePoint? [a, b]) (← basic? cs)
  | '\\' :: 'u' :: a :: b :: c :: d :: cs => do
    return push (← codePoint? [a, b, c, d]) (← basic? cs)
  | '\\' :: 'U' :: a :: b :: c :: d :: e :: f :: g :: h :: cs => do
    return push (← codePoint? [a, b, c, d, e, f, g, h]) (← basic? cs)
  | '\\' :: c :: cs => do return push (← escaped? c) (← basic? cs)
  | c :: cs => if isTextChar c then (basic? cs).map (push c) else none

/-- Read a text of one line up to its closing apostrophe, as it is. -/
def verbatim? : List Char → Option (List Char × List Char)
  | [] => none
  | c :: cs =>
    if c = '\x27' then some ([], cs)
    else if isTextChar c then (verbatim? cs).map (push c)
    else none

/-- Whether a backslash stands at the end of a line. -/
def endsLine (cs : List Char) : Bool := (lineEnd? (skip cs)).isSome

/-- Read a text of several lines up to its tripled closing mark, with escapes.  White
    space is dropped from a backslash at the end of a line to the next character. -/
def longBasic? (dropping : Bool) : List Char → Option (List Char × List Char)
  | [] => none
  | '"' :: '"' :: '"' :: '"' :: '"' :: cs => some (['"', '"'], cs)
  | '"' :: '"' :: '"' :: '"' :: cs => some (['"'], cs)
  | '"' :: '"' :: '"' :: cs => some ([], cs)
  | '\r' :: '\n' :: cs =>
    if dropping then longBasic? true cs else (longBasic? false cs).map (push '\n')
  | '\\' :: 'x' :: a :: b :: cs => do
    return push (← codePoint? [a, b]) (← longBasic? false cs)
  | '\\' :: 'u' :: a :: b :: c :: d :: cs => do
    return push (← codePoint? [a, b, c, d]) (← longBasic? false cs)
  | '\\' :: 'U' :: a :: b :: c :: d :: e :: f :: g :: h :: cs => do
    return push (← codePoint? [a, b, c, d, e, f, g, h]) (← longBasic? false cs)
  | '\\' :: c :: cs =>
    if endsLine (c :: cs) then longBasic? true (c :: cs)
    else do return push (← escaped? c) (← longBasic? false cs)
  | c :: cs =>
    if dropping && (isSpace c || c = '\n') then longBasic? true cs
    else if c = '\n' || isTextChar c then (longBasic? false cs).map (push c)
    else none

/-- Read a text of several lines up to its tripled closing apostrophe, as it is. -/
def longVerbatim? : List Char → Option (List Char × List Char)
  | [] => none
  | '\x27' :: '\x27' :: '\x27' :: '\x27' :: '\x27' :: cs => some (['\x27', '\x27'], cs)
  | '\x27' :: '\x27' :: '\x27' :: '\x27' :: cs => some (['\x27'], cs)
  | '\x27' :: '\x27' :: '\x27' :: cs => some ([], cs)
  | '\r' :: '\n' :: cs => (longVerbatim? cs).map (push '\n')
  | c :: cs => if c = '\n' || isTextChar c then (longVerbatim? cs).map (push c) else none

/-- What follows the opening of a text of several lines: an end of line right behind it
    is dropped. -/
def dropLineEnd (cs : List Char) : List Char := (lineEnd? cs).getD cs

def text? : List Char → Option (List Char × List Char)
  | '"' :: '"' :: '"' :: cs => longBasic? false (dropLineEnd cs)
  | '\x27' :: '\x27' :: '\x27' :: cs => longVerbatim? (dropLineEnd cs)
  | '"' :: cs => basic? cs
  | '\x27' :: cs => verbatim? cs
  | _ => none

/-! ### Keys

A key is a row of names with points between them. -/

/-- Whether a character may stand in a name without quotation marks. -/
def isNameChar (c : Char) : Bool := c.isAlphanum || c = '_' || c = '-'

/-- Read one name of a key. -/
def name? : List Char → Option (List Char × List Char)
  | '"' :: cs => basic? cs
  | '\x27' :: cs => verbatim? cs
  | cs =>
    let name := cs.takeWhile isNameChar
    if name.isEmpty then none else some (name, cs.dropWhile isNameChar)

/-- Read at most `count` names with points between them, and the spaces behind. -/
def names? : (count : Nat) → List Char → Option (List String × List Char)
  | 0, _ => none
  | count + 1, cs => do
    let (name, rest) ← name? (skip cs)
    match skip rest with
    | '.' :: rest =>
      let (names, rest) ← names? count rest
      return (String.ofList name :: names, rest)
    | rest => return ([String.ofList name], rest)

def key? (cs : List Char) : Option (List String × List Char) := names? cs.length cs

/-! ### Numbers

Whole numbers have 64 bits and may be written in base 2, 8 or 16; single underscores may
part digits.  A floating-point number is the nearest value of the format; one beyond the
greatest is refused. -/

/-- Digits, with single underscores between them at will. -/
def grouped? (digit? : Char → Option Nat) : List Char → Option (List Nat)
  | [] => none
  | [c] => (digit? c).map ([·])
  | c :: '_' :: cs => do return (← digit? c) :: (← grouped? digit? cs)
  | c :: cs => do return (← digit? c) :: (← grouped? digit? cs)

/-- Decimal digits that do not begin with a superfluous zero. -/
def whole? (cs : List Char) : Option (List Nat) := do
  match ← grouped? digit? cs with
  | 0 :: _ :: _ => none
  | digits => return digits

/-- A whole number of 64 bits. -/
def integer? (negative : Bool) (digits : List Nat) (base : Nat) : Option Json :=
  let n : Int := ofDigits base digits
  let i := if negative then -n else n
  if -2 ^ (63 : Nat) ≤ i ∧ i < 2 ^ (63 : Nat) then some (.int i) else none

/-- The power of ten from which on every number is beyond the greatest, and below the
    negative of which every fraction is nearest to zero. -/
def farPower : Nat := 400

/-- The size of the value nearest to digits times a power of ten. -/
def nearest? (digits : List Nat) (power : Int) : Option Binary64 :=
  let n := ofDigits 10 digits
  if n = 0 ∨ digits.length + power < -farPower then some .zero
  else if farPower < power then none
  else if power < 0 then Binary64.nearest? n (10 ^ power.natAbs)
  else Binary64.nearest? (n * 10 ^ power.natAbs) 1

/-- The floating-point number with given sign, digits and power of ten. -/
def real? (negative : Bool) (digits : List Nat) (power : Int) : Option Json :=
  (nearest? digits power).map fun x => .number (.real (x.withSign negative))

def sign : List Char → Bool × List Char
  | '-' :: cs => (true, cs)
  | '+' :: cs => (false, cs)
  | cs => (false, cs)

def power? (cs : List Char) : Option Int := do
  let (negative, cs) := sign cs
  let n : Int := ofDigits 10 (← grouped? digit? cs)
  return if negative then -n else n

/-- Read a decimal number behind its sign. -/
def decimal? (negative : Bool) (cs : List Char) : Option Json := do
  let (figure, power) := cs.span fun c => c ≠ 'e' && c ≠ 'E'
  let (front, back) := figure.span (· ≠ '.')
  let whole ← whole? front
  match back, power with
  | [], [] => integer? negative whole 10
  | [], _ :: power => real? negative whole (← power? power)
  | _ :: back, [] =>
    let fraction ← grouped? digit? back
    real? negative (whole ++ fraction) (-fraction.length)
  | _ :: back, _ :: power =>
    let fraction ← grouped? digit? back
    real? negative (whole ++ fraction) ((← power? power) - fraction.length)

/-- The value of a digit in a base of at most sixteen. -/
def digitIn? (base : Nat) (c : Char) : Option Nat := (hexDigit? c).filter (· < base)

/-- Read a number.  Values beyond all numbers are kept as their texts. -/
def number? (cs : List Char) : Option Json :=
  match cs with
  | '0' :: 'x' :: cs => do integer? false (← grouped? (digitIn? 16) cs) 16
  | '0' :: 'o' :: cs => do integer? false (← grouped? (digitIn? 8) cs) 8
  | '0' :: 'b' :: cs => do integer? false (← grouped? (digitIn? 2) cs) 2
  | _ =>
    let (negative, cs) := sign cs
    if cs = "inf".toList then some (.string (if negative then "-inf" else "inf"))
    else if cs = "nan".toList then some (.string "NaN")
    else decimal? negative cs

/-! ### Dates and times

A date, a time of day, or both with `T` or a space between them and perhaps an offset
behind.  A setting takes them as a text in one form: `T` between date and time, no zeros
at the end of a fraction. -/

/-- The number of two digits, if it is at most the greatest. -/
def pair? (greatest : Nat) (a b : Char) : Option Nat :=
  ((digits? [a, b]).map (ofDigits 10)).filter (· ≤ greatest)

/-- Read a date that the calendar has. -/
def date? : List Char → Option (List Char)
  | [y₁, y₂, y₃, y₄, '-', o₁, o₂, '-', d₁, d₂] => do
    let year := ofDigits 10 (← digits? [y₁, y₂, y₃, y₄])
    let month ← pair? 12 o₁ o₂
    let day ← pair? (Timestamp.daysOfMonth year month) d₁ d₂
    if month = 0 ∨ day = 0 then none
    else return [y₁, y₂, y₃, y₄, '-', o₁, o₂, '-', d₁, d₂]
  | _ => none

/-- Digits without the zeros at their end. -/
def withoutEndZeros (cs : List Char) : List Char := (cs.reverse.dropWhile (· = '0')).reverse

/-- Read a fraction of a second: as many digits as make a billionth. -/
def fraction? (cs : List Char) : Option (List Char) :=
  if cs.isEmpty || (digits? cs).isNone then none
  else
    let digits := withoutEndZeros (cs.take 9)
    some (if digits.isEmpty then [] else '.' :: digits)

/-- Read a time of day; the second may be left out. -/
def time? : List Char → Option (List Char)
  | [h₁, h₂, ':', m₁, m₂] => do
    let _ ← pair? 23 h₁ h₂
    let _ ← pair? 59 m₁ m₂
    return [h₁, h₂, ':', m₁, m₂]
  | h₁ :: h₂ :: ':' :: m₁ :: m₂ :: ':' :: s₁ :: s₂ :: cs => do
    let _ ← pair? 23 h₁ h₂
    let _ ← pair? 59 m₁ m₂
    let _ ← pair? 60 s₁ s₂
    let fraction ← match cs with
      | [] => some []
      | '.' :: cs => fraction? cs
      | _ => none
    return [h₁, h₂, ':', m₁, m₂, ':', s₁, s₂] ++ fraction
  | _ => none

/-- Read the distance from universal time. -/
def offset? : List Char → Option (List Char)
  | [] => some []
  | ['Z'] | ['z'] => some ['Z']
  | [sign, h₁, h₂, ':', m₁, m₂] => do
    let hours ← pair? 23 h₁ h₂
    let minutes ← pair? 59 m₁ m₂
    if sign = '+' ∨ hours + minutes = 0 then return ['+', h₁, h₂, ':', m₁, m₂]
    else if sign = '-' then return ['-', h₁, h₂, ':', m₁, m₂]
    else none
  | _ => none

/-- Whether a character may stand in a time of day. -/
def isTimeChar (c : Char) : Bool := c.isDigit || c = ':' || c = '.'

/-- Read what stands behind a date: nothing, or a time with its offset. -/
def clock? : List Char → Option (List Char)
  | [] => some []
  | c :: cs => do
    if c ≠ 'T' ∧ c ≠ 't' ∧ c ≠ ' ' then none
    return 'T' :: (← time? (cs.takeWhile isTimeChar)) ++ (← offset? (cs.dropWhile isTimeChar))

/-- Read a date, a time of day, or both, as the text that a setting takes. -/
def moment? (cs : List Char) : Option (List Char) :=
  match date? (cs.take 10) with
  | some date => (clock? (cs.drop 10)).map (date ++ ·)
  | none => time? cs

end PointOfSale.Toml

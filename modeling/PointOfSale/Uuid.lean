/-
  PointOfSale/Uuid.lean
  =====================
  **Identifiers of items and order lines** — 128 bits, written as 32 hexadecimal
  digits in groups of 8, 4, 4, 4 and 12.  Identifiers are ordered as numbers,
  which is the order of their texts.
-/
import PointOfSale.Text.Basic

namespace PointOfSale

structure Uuid where
  bits : BitVec 128
  deriving DecidableEq

namespace Uuid

/-- The identifier whose bits are all zero. -/
def nil : Uuid := ⟨0⟩

instance : Inhabited Uuid := ⟨nil⟩

def ofNat (n : Nat) : Uuid := ⟨BitVec.ofNat 128 n⟩

/-- Whether one identifier is not after another. -/
def le (a b : Uuid) : Bool := a.bits.toNat ≤ b.bits.toNat

/-! ### Text -/

/-- The hyphenated text of an identifier, in lower case. -/
def chars (u : Uuid) : List Char :=
  let digits := Text.lastDigits 16 32 u.bits.toNat
  digits.take 8 ++ '-' :: (digits.drop 8).take 4 ++ '-' :: (digits.drop 12).take 4 ++
    '-' :: (digits.drop 16).take 4 ++ '-' :: digits.drop 20

def text (u : Uuid) : String := String.ofList u.chars

instance : ToString Uuid := ⟨text⟩

instance : Repr Uuid := ⟨fun u _ => u.text⟩

/-- Read 32 hexadecimal digits. -/
def ofDigits? (cs : List Char) : Option Uuid :=
  if cs.length = 32 then (cs.mapM Text.hexDigit?).map fun ds => ofNat (Text.ofDigits 16 ds)
  else none

/-- Read groups of 8, 4, 4, 4 and 12 digits with hyphens between them. -/
def ofHyphenated? (cs : List Char) : Option Uuid :=
  if cs.length = 36 ∧ [8, 13, 18, 23].all (fun i => cs[i]? = some '-') then
    ofDigits? (cs.take 8 ++ (cs.drop 9).take 4 ++ (cs.drop 14).take 4 ++
      (cs.drop 19).take 4 ++ cs.drop 24)
  else none

/-- What stands in front of an identifier written as a resource name, in any case. -/
def resourceMark : List Char := "urn:uuid:".toList

/-- Read an identifier: plain digits, groups with hyphens, groups in braces, or
    groups behind the mark of a resource name. -/
def ofChars? (cs : List Char) : Option Uuid :=
  match cs with
  | '\x7b' :: rest =>
    if rest.getLast? = some '\x7d' then ofHyphenated? rest.dropLast else none
  | _ =>
    if cs.length = 32 then ofDigits? cs
    else if (cs.take 9).map Char.toLower = resourceMark then ofHyphenated? (cs.drop 9)
    else ofHyphenated? cs

def ofString? (s : String) : Option Uuid := ofChars? s.toList

end Uuid

end PointOfSale

/-
  PointOfSale/Proofs/Decimal/Notation.lean
  ========================================
  **How numbers are written.**  A plain number is a sign or none, digits with at most one
  point, and perhaps a power of ten.  Separators may stand among the digits once one was
  seen, so a row of places only has to begin with a digit (`PositionalForm`).

  The reader of decimals takes such texts and no others, and what it gives follows from
  the form alone (`ofChars?_eq_some_iff`).  It is not quite as strict as the form: behind
  the minus sign of a power of ten it passes over a plus sign.
-/
import PointOfSale.Decimal.Notation
import PointOfSale.Proofs.Text.Digits

namespace PointOfSale

open Text (digit? digits? ofDigits)

def singleSigns : List (List Char) := [[], ['-'], ['+']]

theorem Text.digit?_eq_some_iff {c : Char} {d : Nat} :
    digit? c = some d ↔ d < 10 ∧ c = Nat.digitChar d := by
  constructor
  · intro h
    unfold digit? at h
    split at h
    · rename_i hrange
      have hcode : 48 ≤ c.toNat ∧ c.toNat ≤ 57 := hrange
      have hd : c.toNat - 48 = d := Option.some.inj h
      have hlt : d < 10 := by omega
      refine ⟨hlt, Char.toNat_inj.1 ?_⟩
      rw [Nat.toNat_digitChar_of_lt_ten hlt]
      omega
    · cases h
  · rintro ⟨hd, rfl⟩
    exact digit?_digitChar hd

theorem Text.digits?_eq_some_iff {cs : List Char} {ds : List Nat} :
    digits? cs = some ds ↔ (∀ d ∈ ds, d < 10) ∧ cs = ds.map Nat.digitChar := by
  induction cs generalizing ds with
  | nil => cases ds <;> simp [digits?]
  | cons c cs ih =>
    unfold digits? at ih ⊢
    rw [List.mapM_cons]
    constructor
    · intro h
      cases hc : digit? c with
      | none => simp [hc] at h
      | some d =>
        cases hcs : cs.mapM digit? with
        | none => simp [hc, hcs] at h
        | some es =>
          obtain rfl : d :: es = ds := by simpa [hc, hcs] using h
          obtain ⟨hd, rfl⟩ := Text.digit?_eq_some_iff.1 hc
          obtain ⟨hes, rfl⟩ := ih.1 hcs
          exact ⟨by simpa using ⟨hd, hes⟩, rfl⟩
    · rintro ⟨hlt, htext⟩
      cases ds with
      | nil => cases htext
      | cons d es =>
        obtain ⟨rfl, htail⟩ := List.cons.inj htext
        obtain ⟨hd, hes⟩ := List.forall_mem_cons.1 hlt
        simp [digit?_digitChar hd, ih.2 ⟨hes, htail⟩]

/-! ### Rows of places -/

namespace Numeral

/-- A place as it is written; `none` is a separator. -/
def placeChar : Option Nat → Char
  | some d => Nat.digitChar d
  | none => '_'

/-- A row of places that may stand behind what was seen. -/
structure IsRow (seen : Bool) (row : List (Option Nat)) : Prop where
  lt_ten : ∀ d, some d ∈ row → d < 10
  separators : seen = false → row.head? ≠ some none

variable {seen : Bool} {row : List (Option Nat)} {d : Nat}

theorem isRow_nil (seen : Bool) : IsRow seen [] := ⟨by simp, by simp⟩

theorem isRow_digit_cons_iff : IsRow seen (some d :: row) ↔ d < 10 ∧ IsRow true row := by
  constructor
  · intro h
    refine ⟨h.lt_ten d List.mem_cons_self, ?_, by simp⟩
    intro e he
    exact h.lt_ten e (List.mem_cons_of_mem _ he)
  · rintro ⟨hd, h⟩
    refine ⟨?_, by simp⟩
    intro e he
    rcases List.mem_cons.1 he with he | he
    · cases he
      exact hd
    · exact h.lt_ten e he

theorem isRow_separator_cons_iff : IsRow seen (none :: row) ↔ seen = true ∧ IsRow true row := by
  constructor
  · intro h
    have hseen : seen = true := by
      cases seen with
      | true => rfl
      | false => exact absurd rfl (h.separators rfl)
    refine ⟨hseen, ?_, by simp⟩
    intro e he
    exact h.lt_ten e (List.mem_cons_of_mem _ he)
  · rintro ⟨rfl, h⟩
    refine ⟨?_, by simp⟩
    intro e he
    rcases List.mem_cons.1 he with he | he
    · cases he
    · exact h.lt_ten e he

theorem digit?_point : digit? '.' = none := by decide

theorem digit?_separator : digit? '_' = none := by decide

def seenAfter (seen : Bool) (row : List (Option Nat)) : Bool := seen || row.any (·.isSome)

theorem fractionalPlaces_complete (h : IsRow seen row) :
    fractionalPlaces seen (row.map placeChar) = some (seenAfter seen row, row) := by
  induction row generalizing seen with
  | nil => simp [fractionalPlaces, seenAfter]
  | cons p row ih =>
    cases p with
    | some d =>
      obtain ⟨hd, hrow⟩ := isRow_digit_cons_iff.1 h
      simp [fractionalPlaces, placeChar, Text.digit?_digitChar hd, ih hrow, seenAfter]
    | none =>
      obtain ⟨rfl, hrow⟩ := isRow_separator_cons_iff.1 h
      simp [fractionalPlaces, placeChar, digit?_separator, ih hrow, seenAfter]

theorem fractionalPlaces_sound {cs : List Char} {last : Bool}
    (h : fractionalPlaces seen cs = some (last, row)) :
    IsRow seen row ∧ cs = row.map placeChar ∧ last = seenAfter seen row := by
  induction cs generalizing seen row with
  | nil =>
    cases h
    exact ⟨isRow_nil _, rfl, by simp [seenAfter]⟩
  | cons c cs ih =>
    unfold fractionalPlaces at h
    cases hc : digit? c with
    | some d =>
      simp only [hc, Option.map_eq_some_iff] at h
      obtain ⟨⟨s, ps⟩, hrest, heq⟩ := h
      cases heq
      obtain ⟨hd, rfl⟩ := Text.digit?_eq_some_iff.1 hc
      obtain ⟨hrow, rfl, rfl⟩ := ih hrest
      exact ⟨isRow_digit_cons_iff.2 ⟨hd, hrow⟩, rfl, by simp [seenAfter]⟩
    | none =>
      simp only [hc] at h
      split at h
      · rename_i hseparator
        obtain ⟨rfl, rfl⟩ : c = '_' ∧ seen = true := by simpa using hseparator
        rw [Option.map_eq_some_iff] at h
        obtain ⟨⟨s, ps⟩, hrest, heq⟩ := h
        cases heq
        obtain ⟨hrow, rfl, rfl⟩ := ih hrest
        exact ⟨isRow_separator_cons_iff.2 ⟨rfl, hrow⟩, rfl, by simp [seenAfter]⟩
      · cases h

def pointChars : Option (List (Option Nat)) → List Char
  | none => []
  | some places => '.' :: places.map placeChar

theorem wholeDigits_complete {places? : Option (List (Option Nat))}
    (h : IsRow seen (row ++ places?.getD [])) :
    wholeDigits seen (row.map placeChar ++ pointChars places?) =
      some (seenAfter seen (row ++ places?.getD []), row.filterMap id, places?.getD []) := by
  induction row generalizing seen with
  | nil =>
    cases places? with
    | none => simp [wholeDigits, pointChars, seenAfter]
    | some places =>
      simp only [List.nil_append, Option.getD_some] at h
      simp [wholeDigits, pointChars, digit?_point, fractionalPlaces_complete h]
  | cons p row ih =>
    rw [List.cons_append] at h
    cases p with
    | some d =>
      obtain ⟨hd, hrow⟩ := isRow_digit_cons_iff.1 h
      simp [wholeDigits, placeChar, Text.digit?_digitChar hd, ih hrow, seenAfter]
    | none =>
      obtain ⟨rfl, hrow⟩ := isRow_separator_cons_iff.1 h
      simp [wholeDigits, placeChar, digit?_separator, ih hrow, seenAfter]

theorem wholeDigits_sound {cs : List Char} {last : Bool} {whole : List Nat}
    {places : List (Option Nat)} (h : wholeDigits seen cs = some (last, whole, places)) :
    ∃ row places?, IsRow seen (row ++ places) ∧ cs = row.map placeChar ++ pointChars places? ∧
      last = seenAfter seen (row ++ places) ∧ whole = row.filterMap id ∧
      places = places?.getD [] := by
  induction cs generalizing seen last whole with
  | nil =>
    cases h
    exact ⟨[], none, isRow_nil _, rfl, by simp [seenAfter], rfl, rfl⟩
  | cons c cs ih =>
    unfold wholeDigits at h
    cases hc : digit? c with
    | some d =>
      simp only [hc, Option.map_eq_some_iff] at h
      obtain ⟨⟨s, ds, ps⟩, hrest, heq⟩ := h
      simp only [Prod.mk.injEq] at heq
      obtain ⟨rfl, rfl, rfl⟩ := heq
      obtain ⟨hd, rfl⟩ := Text.digit?_eq_some_iff.1 hc
      obtain ⟨row, places?, hrow, rfl, rfl, rfl, hplaces⟩ := ih hrest
      exact ⟨some d :: row, places?, isRow_digit_cons_iff.2 ⟨hd, hrow⟩, rfl,
        by simp [seenAfter], rfl, hplaces⟩
    | none =>
      simp only [hc] at h
      split at h
      · rename_i hpoint
        subst hpoint
        rw [Option.map_eq_some_iff] at h
        obtain ⟨⟨s, ps⟩, hrest, heq⟩ := h
        cases heq
        obtain ⟨hrow, rfl, rfl⟩ := fractionalPlaces_sound hrest
        exact ⟨[], some ps, hrow, rfl, rfl, rfl, rfl⟩
      · split at h
        · rename_i hseparator
          obtain ⟨rfl, rfl⟩ : c = '_' ∧ seen = true := by simpa using hseparator
          obtain ⟨row, places?, hrow, rfl, rfl, rfl, rfl⟩ := ih h
          exact ⟨none :: row, places?, isRow_separator_cons_iff.2 ⟨rfl, hrow⟩, rfl,
            by simp [seenAfter], rfl, rfl⟩
        · cases h

end Numeral

/-! ### Positional notation -/

open Numeral (placeChar pointChars)

/-- Digits with at most one point, and separators among them. -/
structure PositionalForm where
  whole : List (Option Nat)
  /-- The places behind the point, if there is a point. -/
  places? : Option (List (Option Nat))
  lt_ten : ∀ d, some d ∈ whole ++ places?.getD [] → d < 10
  /-- The first place is a digit, so there is one and every separator stands behind one. -/
  first : ∃ d, (whole ++ places?.getD []).head? = some (some d)

namespace PositionalForm

def row (f : PositionalForm) : List (Option Nat) := f.whole ++ f.places?.getD []

def chars (f : PositionalForm) : List Char := f.whole.map placeChar ++ pointChars f.places?

/-- The numeral that is read from the form behind a sign. -/
def numeral (f : PositionalForm) (negative : Bool) : Numeral :=
  ⟨negative, f.whole.filterMap id, f.places?.getD []⟩

theorem isRow (f : PositionalForm) : Numeral.IsRow false f.row := by
  refine ⟨f.lt_ten, ?_⟩
  intro _ hnone
  obtain ⟨d, hd⟩ := f.first
  rw [row, hd] at hnone
  cases hnone

theorem seenAfter_row (f : PositionalForm) : Numeral.seenAfter false f.row = true := by
  obtain ⟨d, hd⟩ := f.first
  have hmem : some d ∈ f.row := List.mem_of_head? hd
  simp only [Numeral.seenAfter, Bool.false_or, List.any_eq_true]
  exact ⟨some d, hmem, rfl⟩

def alphabet : List Char := "0123456789_.".toList

theorem mem_alphabet {f : PositionalForm} {c : Char} (hc : c ∈ f.chars) : c ∈ alphabet := by
  have hplace : ∀ p ∈ f.row, placeChar p ∈ alphabet := by
    intro p hp
    cases p with
    | none => decide
    | some d =>
      have hall : ∀ e < 10, Nat.digitChar e ∈ alphabet := by decide
      exact hall d (f.lt_ten d hp)
  rcases List.mem_append.1 hc with hc | hc
  · obtain ⟨p, hp, rfl⟩ := List.mem_map.1 hc
    exact hplace p (List.mem_append_left _ hp)
  · cases hplaces : f.places? with
    | none => simp [hplaces, pointChars] at hc
    | some places =>
      rw [hplaces, pointChars] at hc
      rcases List.mem_cons.1 hc with rfl | hc
      · decide
      · obtain ⟨p, hp, rfl⟩ := List.mem_map.1 hc
        exact hplace p (List.mem_append_right _ (by rwa [hplaces]))

theorem chars_ne_nil (f : PositionalForm) : f.chars ≠ [] := by
  obtain ⟨d, hd⟩ := f.first
  intro hnil
  rw [chars, List.append_eq_nil_iff, List.map_eq_nil_iff] at hnil
  rw [hnil.1] at hd
  cases hplaces : f.places? with
  | none => simp [hplaces] at hd
  | some places => simp [hplaces, pointChars] at hnil

theorem exists_chars_eq_cons (f : PositionalForm) :
    ∃ c rest, f.chars = c :: rest ∧ c ∈ alphabet := by
  obtain ⟨c, rest, h⟩ := List.exists_cons_of_ne_nil f.chars_ne_nil
  exact ⟨c, rest, h, mem_alphabet (h ▸ List.mem_cons_self)⟩

end PositionalForm

namespace Numeral

theorem sign_append (f : PositionalForm) {signs : List Char} (hsigns : signs ∈ singleSigns) :
    sign (signs ++ f.chars) = (decide ('-' ∈ signs), f.chars) := by
  obtain ⟨c, rest, htext, hc⟩ := f.exists_chars_eq_cons
  have hminus : c ≠ '-' := by
    rintro rfl
    exact absurd hc (by decide)
  have hplus : c ≠ '+' := by
    rintro rfl
    exact absurd hc (by decide)
  simp only [singleSigns, List.mem_cons, List.not_mem_nil, or_false] at hsigns
  rcases hsigns with rfl | rfl | rfl
  · rw [List.nil_append, htext, sign]
    · rfl
    · rintro cs hcs
      exact hminus (List.cons.inj hcs).1
    · rintro cs hcs
      exact hplus (List.cons.inj hcs).1
  · rfl
  · rfl

theorem exists_sign (cs : List Char) :
    ∃ signs ∈ singleSigns, cs = signs ++ (sign cs).2 ∧ (sign cs).1 = decide ('-' ∈ signs) := by
  unfold sign
  split
  · exact ⟨['-'], by decide, rfl, by simp⟩
  · exact ⟨['+'], by decide, rfl, by simp⟩
  · exact ⟨[], by decide, rfl, by simp⟩

/-- **Numerals are the positional forms** behind at most one sign. -/
theorem ofChars?_eq_some_iff {cs : List Char} {n : Numeral} :
    ofChars? cs = some n ↔ ∃ signs ∈ singleSigns, ∃ f : PositionalForm,
      cs = signs ++ f.chars ∧ n = f.numeral (decide ('-' ∈ signs)) := by
  constructor
  · intro h
    obtain ⟨signs, hsigns, htext, hnegative⟩ := exists_sign cs
    unfold ofChars? at h
    split at h
    case h_2 => cases h
    case h_1 whole places hread =>
      obtain ⟨row, places?, hrow, hchars, hseen, rfl, rfl⟩ := wholeDigits_sound hread
      have hfirst : ∃ d, (row ++ places?.getD []).head? = some (some d) := by
        cases hplaces : row ++ places?.getD [] with
        | nil => simp [hplaces, seenAfter] at hseen
        | cons p rest =>
          cases p with
          | some d => exact ⟨d, rfl⟩
          | none => exact absurd (by rw [hplaces]; rfl) (hrow.separators rfl)
      refine ⟨signs, hsigns, ⟨row, places?, hrow.lt_ten, hfirst⟩, ?_, ?_⟩
      · rw [htext, hchars]
        rfl
      · rw [← hnegative]
        exact (Option.some.inj h).symm
  · rintro ⟨signs, hsigns, f, rfl, rfl⟩
    have hread : wholeDigits false f.chars =
        some (true, f.whole.filterMap id, f.places?.getD []) := by
      rw [PositionalForm.chars, wholeDigits_complete f.isRow]
      simp only [Option.some.injEq, Prod.mk.injEq, and_true]
      exact f.seenAfter_row
    rw [ofChars?, sign_append f hsigns, hread]
    rfl

end Numeral

/-! ### Digits that fit -/

namespace Numeral

theorem takePlaces_of_fits {places : List (Option Nat)} {size scale : Nat}
    (hscale : scale + (places.filterMap id).length ≤ Decimal.maxScale)
    (hfits : (places.filterMap id).foldl (fun n d => n * 10 + d) size < Decimal.bound) :
    takePlaces size scale places =
      some ((places.filterMap id).foldl (fun n d => n * 10 + d) size,
        scale + (places.filterMap id).length) := by
  induction places generalizing size scale with
  | nil => rfl
  | cons p places ih =>
    cases p with
    | none =>
      rw [List.filterMap_cons_none rfl] at hscale hfits ⊢
      rw [takePlaces]
      split
      · -- behind the last place there are only separators
        rename_i hlast
        have hnil : places.filterMap id = [] := by
          rw [← List.length_eq_zero_iff]
          omega
        rw [hnil]
        rfl
      · exact ih hscale hfits
    | some d =>
      have htaken : (some d :: places).filterMap id = d :: places.filterMap id := rfl
      rw [htaken] at hscale hfits ⊢
      rw [List.foldl_cons] at hfits ⊢
      rw [List.length_cons] at hscale ⊢
      have hnext : size * 10 + d < Decimal.bound :=
        Nat.lt_of_le_of_lt (Text.le_foldl_digits _ _) hfits
      rw [takePlaces, if_pos ⟨by omega, hnext⟩, ih (by omega) hfits]
      congr 2
      omega

theorem roundAt_le {size scale digit n places : Nat} (h : roundAt size scale digit = some (n, places)) :
    n ≤ size + 1 := by
  unfold roundAt at h
  split at h
  · cases h
    omega
  · split at h
    · cases h
      omega
    · split at h
      · cases h
      · cases h
        omega

/-- What is taken of a row of places is at most one above the number of all of them. -/
theorem takePlaces_le {places : List (Option Nat)} {size scale n s : Nat}
    (h : takePlaces size scale places = some (n, s)) :
    n ≤ (places.filterMap id).foldl (fun n d => n * 10 + d) size + 1 := by
  induction places generalizing size scale with
  | nil =>
    cases h
    exact Nat.le_succ _
  | cons p places ih =>
    cases p with
    | none =>
      rw [List.filterMap_cons_none rfl]
      rw [takePlaces] at h
      split at h
      · cases h
        exact Nat.le_succ_of_le (Text.le_foldl_digits _ _)
      · exact ih h
    | some d =>
      have htaken : (some d :: places).filterMap id = d :: places.filterMap id := rfl
      rw [htaken, List.foldl_cons]
      rw [takePlaces] at h
      split at h
      · exact ih h
      · have hround := roundAt_le h
        have hall := Text.le_foldl_digits (places.filterMap id) (size * 10 + d)
        omega

end Numeral

namespace PositionalForm

/-- All digits as one integer. -/
def magnitude (f : PositionalForm) : Nat := ofDigits 10 (f.row.filterMap id)

/-- The number of digits behind the point. -/
def scale (f : PositionalForm) : Nat := ((f.places?.getD []).filterMap id).length

theorem magnitude_eq (f : PositionalForm) :
    f.magnitude = ((f.places?.getD []).filterMap id).foldl (fun n d => n * 10 + d)
      (ofDigits 10 (f.whole.filterMap id)) := by
  rw [magnitude, row, List.filterMap_append, Text.ofDigits_append]

theorem toDecimal?_of_takePlaces {f : PositionalForm} (negative : Bool) {n size scale : Nat}
    (hwhole : ofDigits 10 (f.whole.filterMap id) = n) (hn : n < Decimal.bound)
    (hplaces : Numeral.takePlaces n 0 (f.places?.getD []) = some (size, scale)) :
    (f.numeral negative).toDecimal? =
      (Decimal.ofParts? negative size scale).map Decimal.plainZero := by
  simp only [numeral, Numeral.toDecimal?, hwhole, if_pos hn, hplaces]

/-- A form whose digits all fit is read digit for digit. -/
theorem toDecimal?_numeral (f : PositionalForm) (negative : Bool)
    (hscale : f.scale ≤ Decimal.maxScale) (hfits : f.magnitude < Decimal.bound) :
    (f.numeral negative).toDecimal? =
      some (Decimal.mk negative f.magnitude f.scale hfits hscale).plainZero := by
  have hwhole : ofDigits 10 (f.whole.filterMap id) < Decimal.bound := by
    have hall := hfits
    rw [magnitude_eq] at hall
    exact Nat.lt_of_le_of_lt (Text.le_foldl_digits _ _) hall
  have hroom : 0 + f.scale ≤ Decimal.maxScale := (Nat.zero_add _).trans_le hscale
  have hplaces := Numeral.takePlaces_of_fits hroom (f.magnitude_eq ▸ hfits)
  rw [← magnitude_eq, Nat.zero_add] at hplaces
  rw [toDecimal?_of_takePlaces negative rfl hwhole hplaces, ← scale, Decimal.ofParts?,
    dif_pos ⟨hfits, hscale⟩]
  rfl

end PositionalForm

/-! ### Powers of ten -/

/-- A power of ten as it is written behind a number. -/
structure PowerForm where
  mark : Char
  signs : List Char
  digits : List Nat
  isMark : mark = 'e' ∨ mark = 'E'
  digits_ne_nil : digits ≠ []
  lt_ten : ∀ d ∈ digits, d < 10

namespace PowerForm

def exponentChars (p : PowerForm) : List Char := p.signs ++ p.digits.map Nat.digitChar

def chars (p : PowerForm) : List Char := p.mark :: p.exponentChars

def isNegative (p : PowerForm) : Bool := '-' ∈ p.signs

def size (p : PowerForm) : Nat := ofDigits 10 p.digits

end PowerForm

namespace Decimal

/-- The signs that are passed over in front of the digits of an exponent. -/
def exponentSigns : List (List Char) := ['-', '+'] :: singleSigns

theorem exponentDigits?_eq_some_iff {cs : List Char} {n : Nat} :
    exponentDigits? cs = some n ↔ ∃ ds, ds ≠ [] ∧ (∀ d ∈ ds, d < 10) ∧
      cs = ds.map Nat.digitChar ∧ n = ofDigits 10 ds := by
  unfold exponentDigits?
  constructor
  · intro h
    split at h
    · cases h
    · rename_i hne
      rw [Option.map_eq_some_iff] at h
      obtain ⟨ds, hread, rfl⟩ := h
      obtain ⟨hlt, rfl⟩ := Text.digits?_eq_some_iff.1 hread
      exact ⟨ds, by simpa using hne, hlt, rfl, rfl⟩
  · rintro ⟨ds, hne, hlt, rfl, rfl⟩
    rw [if_neg (by simpa using hne), Text.digits?_eq_some_iff.2 ⟨hlt, rfl⟩, Option.map_some]

theorem exponent?_append {signs : List Char} (hsigns : signs ∈ exponentSigns) {ds : List Nat}
    (hne : ds ≠ []) (hlt : ∀ d ∈ ds, d < 10) :
    exponent? (signs ++ ds.map Nat.digitChar) = some (decide ('-' ∈ signs), ofDigits 10 ds) := by
  have hdigits := exponentDigits?_eq_some_iff.2 ⟨ds, hne, hlt, rfl, rfl⟩
  obtain ⟨d, es, rfl⟩ := List.exists_cons_of_ne_nil hne
  have hd := hlt d List.mem_cons_self
  have hminus : Nat.digitChar d ≠ '-' := by
    have hall : ∀ e < 10, Nat.digitChar e ≠ '-' := by decide
    exact hall d hd
  have hplus : Nat.digitChar d ≠ '+' := by
    have hall : ∀ e < 10, Nat.digitChar e ≠ '+' := by decide
    exact hall d hd
  rw [List.map_cons] at hdigits ⊢
  simp only [exponentSigns, singleSigns, List.mem_cons, List.not_mem_nil, or_false] at hsigns
  rcases hsigns with rfl | rfl | rfl | rfl <;>
    simp [exponent?, hdigits, hminus, hplus]

theorem exists_exponentSigns (cs : List Char) :
    ∃ signs ∈ exponentSigns, ∃ rest, cs = signs ++ rest ∧
      exponent? cs = (exponentDigits? rest).map fun n => (decide ('-' ∈ signs), n) := by
  unfold exponent?
  rcases cs with _ | ⟨c, cs⟩
  · exact ⟨[], by decide, [], rfl, rfl⟩
  · by_cases hminus : c = '-'
    · subst hminus
      rcases cs with _ | ⟨d, cs⟩
      · exact ⟨['-'], by decide, [], rfl, rfl⟩
      · by_cases hplus : d = '+'
        · subst hplus
          exact ⟨['-', '+'], by decide, cs, rfl, rfl⟩
        · exact ⟨['-'], by decide, d :: cs, rfl, by simp [hplus]⟩
    · by_cases hplus : c = '+'
      · subst hplus
        exact ⟨['+'], by decide, cs, rfl, rfl⟩
      · exact ⟨[], by decide, c :: cs, rfl, by simp [hminus, hplus]⟩

theorem exponent?_eq_some_iff {cs : List Char} {negative : Bool} {n : Nat} :
    exponent? cs = some (negative, n) ↔ ∃ signs ∈ exponentSigns, ∃ ds, ds ≠ [] ∧
      (∀ d ∈ ds, d < 10) ∧ cs = signs ++ ds.map Nat.digitChar ∧
      negative = decide ('-' ∈ signs) ∧ n = ofDigits 10 ds := by
  constructor
  · intro h
    obtain ⟨signs, hsigns, rest, rfl, hread⟩ := exists_exponentSigns cs
    rw [hread, Option.map_eq_some_iff] at h
    obtain ⟨k, hk, heq⟩ := h
    cases heq
    obtain ⟨ds, hne, hlt, rfl, rfl⟩ := exponentDigits?_eq_some_iff.1 hk
    exact ⟨signs, hsigns, ds, hne, hlt, rfl, rfl, rfl⟩
  · rintro ⟨signs, hsigns, ds, hne, hlt, rfl, rfl, rfl⟩
    exact exponent?_append hsigns hne hlt

end Decimal

/-! ### Plain numbers -/

/-- A number as it is written without parentheses. -/
structure PlainForm where
  signs : List Char
  body : PositionalForm
  power? : Option PowerForm

namespace PlainForm

def chars (n : PlainForm) : List Char :=
  n.signs ++ n.body.chars ++ n.power?.elim [] PowerForm.chars

/-- The decimal that the digits give, brought to the power of ten. -/
def number? (n : PlainForm) : Option Decimal := do
  let d ← (n.body.numeral (decide ('-' ∈ n.signs))).toDecimal?
  match n.power? with
  | none => some d
  | some p =>
    if Decimal.maxScale < p.size then none
    else if p.isNegative then d.lowerBy p.size
    else d.raiseBy p.size

/-- A form that the reader of decimals takes. -/
structure IsDecimal (n : PlainForm) : Prop where
  signs : n.signs ∈ singleSigns
  power : ∀ p ∈ n.power?, p.signs ∈ Decimal.exponentSigns

end PlainForm

namespace Decimal

theorem isExponentMark_iff {c : Char} : isExponentMark c = true ↔ c = 'e' ∨ c = 'E' := by
  simp [isExponentMark]

theorem not_isExponentMark {signs : List Char} (hsigns : signs ∈ singleSigns)
    (f : PositionalForm) : ∀ c ∈ signs ++ f.chars, (!isExponentMark c) = true := by
  intro c hc
  rcases List.mem_append.1 hc with hc | hc
  · have hall : ∀ signs ∈ singleSigns, signs.all (!isExponentMark ·) = true := by decide
    exact List.all_eq_true.1 (hall signs hsigns) c hc
  · have hall : ∀ c ∈ PositionalForm.alphabet, (!isExponentMark c) = true :=
      Text.forall_mem_of_all (by decide)
    exact hall c (PositionalForm.mem_alphabet hc)

theorem ofPositional?_eq_some_iff {cs : List Char} {d : Decimal} :
    ofPositional? cs = some d ↔ ∃ signs ∈ singleSigns, ∃ f : PositionalForm,
      cs = signs ++ f.chars ∧ (f.numeral (decide ('-' ∈ signs))).toDecimal? = some d := by
  rw [ofPositional?, Option.bind_eq_some_iff]
  constructor
  · rintro ⟨n, hn, hd⟩
    obtain ⟨signs, hsigns, f, rfl, rfl⟩ := Numeral.ofChars?_eq_some_iff.1 hn
    exact ⟨signs, hsigns, f, rfl, hd⟩
  · rintro ⟨signs, hsigns, f, rfl, hd⟩
    exact ⟨_, Numeral.ofChars?_eq_some_iff.2 ⟨signs, hsigns, f, rfl, rfl⟩, hd⟩

/-- The first mark ends the digits in front of the power. -/
theorem ofScientific?_append {base : List Char} (hbase : ∀ c ∈ base, (!isExponentMark c) = true)
    (p : PowerForm) :
    ofScientific? (base ++ p.chars) = (ofPositional? base).bind fun d =>
      (exponent? p.exponentChars).bind fun (negative, k) =>
        if maxScale < k then none else if negative then d.lowerBy k else d.raiseBy k := by
  have hmark : isExponentMark p.mark = true := isExponentMark_iff.2 p.isMark
  have htake : (base ++ p.chars).takeWhile (!isExponentMark ·) = base := by
    rw [List.takeWhile_append_of_pos hbase, PowerForm.chars, List.takeWhile_cons_of_neg,
      List.append_nil]
    simp [hmark]
  have hdrop : (base ++ p.chars).dropWhile (!isExponentMark ·) = p.mark :: p.exponentChars := by
    rw [List.dropWhile_append_of_pos hbase, PowerForm.chars, List.dropWhile_cons_of_neg]
    simp [hmark]
  rw [ofScientific?, hdrop, htake]
  rfl

theorem ofScientific?_eq_some_iff {cs : List Char} {d : Decimal} :
    ofScientific? cs = some d ↔ ∃ n : PlainForm, n.IsDecimal ∧ n.power?.isSome ∧
      cs = n.chars ∧ n.number? = some d := by
  constructor
  · intro h
    unfold ofScientific? at h
    split at h
    · cases h
    · rename_i mark rest hrest
      simp only [Option.bind_eq_bind, Option.bind_eq_some_iff] at h
      obtain ⟨base, hbase, ⟨negative, k⟩, hk, hd⟩ := h
      obtain ⟨signs, hsigns, f, htext, hbase⟩ := ofPositional?_eq_some_iff.1 hbase
      obtain ⟨esigns, hesigns, ds, hne, hlt, rfl, rfl, rfl⟩ := exponent?_eq_some_iff.1 hk
      have hmark : isExponentMark mark = true := by
        have hhead := List.head?_dropWhile_not (!isExponentMark ·) cs
        simpa [hrest] using hhead
      refine ⟨⟨signs, f, some ⟨mark, esigns, ds, isExponentMark_iff.1 hmark, hne, hlt⟩⟩,
        ⟨hsigns, ?_⟩, rfl, ?_, ?_⟩
      · rintro p hp
        cases hp
        exact hesigns
      · rw [← List.takeWhile_append_dropWhile (p := (!isExponentMark ·)) (l := cs), htext, hrest]
        rfl
      · simp only [PlainForm.number?, hbase]
        exact hd
  · rintro ⟨⟨signs, f, power?⟩, ⟨hsigns, hpower⟩, hsome, rfl, hd⟩
    obtain ⟨p, rfl⟩ := Option.isSome_iff_exists.1 hsome
    obtain ⟨base, hbase, hd⟩ := Option.bind_eq_some_iff.1 hd
    have hread := ofPositional?_eq_some_iff.2 ⟨signs, hsigns, f, rfl, hbase⟩
    have hexponent : exponent? p.exponentChars = some (p.isNegative, p.size) :=
      exponent?_append (hpower p rfl) p.digits_ne_nil p.lt_ten
    show ofScientific? (signs ++ f.chars ++ p.chars) = some d
    rw [ofScientific?_append (not_isExponentMark hsigns f), hread, hexponent]
    exact hd

/-- A text with a power of ten is no positional numeral. -/
theorem ofPositional?_chars_of_power {n : PlainForm} (hpower : n.power?.isSome) :
    ofPositional? n.chars = none := by
  obtain ⟨p, hp⟩ := Option.isSome_iff_exists.1 hpower
  rw [← Option.not_isSome_iff_eq_none, Option.isSome_iff_exists]
  rintro ⟨d, hd⟩
  obtain ⟨signs, hsigns, f, htext, -⟩ := ofPositional?_eq_some_iff.1 hd
  have hmem : p.mark ∈ signs ++ f.chars := by
    rw [← htext, PlainForm.chars, hp]
    simp [PowerForm.chars]
  have hmark : isExponentMark p.mark = true := isExponentMark_iff.2 p.isMark
  simpa [hmark] using not_isExponentMark hsigns f p.mark hmem

/-- **What is read as a decimal** has the form of one, and the decimal is that of the form. -/
theorem ofChars?_eq_some_iff {cs : List Char} {d : Decimal} :
    ofChars? cs = some d ↔ ∃ n : PlainForm, n.IsDecimal ∧ cs = n.chars ∧ n.number? = some d := by
  constructor
  · intro h
    unfold ofChars? at h
    split at h
    · rename_i e he
      cases h
      obtain ⟨signs, hsigns, f, rfl, hd⟩ := ofPositional?_eq_some_iff.1 he
      refine ⟨⟨signs, f, none⟩, ⟨hsigns, by simp⟩, by simp [PlainForm.chars], ?_⟩
      simp [PlainForm.number?, hd]
    · obtain ⟨n, hn, -, htext, hd⟩ := ofScientific?_eq_some_iff.1 h
      exact ⟨n, hn, htext, hd⟩
  · rintro ⟨n, hn, rfl, hd⟩
    unfold ofChars?
    cases hpower : n.power? with
    | none =>
      have hbase : (n.body.numeral (decide ('-' ∈ n.signs))).toDecimal? = some d := by
        simpa [PlainForm.number?, hpower] using hd
      have htext : n.chars = n.signs ++ n.body.chars := by simp [PlainForm.chars, hpower]
      rw [ofPositional?_eq_some_iff.2 ⟨n.signs, hn.signs, n.body, htext, hbase⟩]
    | some p =>
      have hsome : n.power?.isSome := by simp [hpower]
      rw [ofPositional?_chars_of_power hsome]
      exact ofScientific?_eq_some_iff.2 ⟨n, hn, hsome, rfl, hd⟩

end Decimal

end PointOfSale

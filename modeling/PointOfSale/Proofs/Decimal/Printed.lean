/-
  PointOfSale/Proofs/Decimal/Printed.lean
  =======================================
  **Reading what was printed.**  A decimal is read back from its own text with its
  scale, a zero without its sign (`parse_text`).  An amount of stock is written
  without the zeros at its end and still denotes the rounded number when it is
  read again (`parse_amountText`).
-/
import Mathlib.Tactic.FieldSimp
import PointOfSale.Decimal.Notation
import PointOfSale.Literal
import PointOfSale.Proofs.Decimal.Notation
import PointOfSale.Proofs.Decimal.Value

namespace PointOfSale

open Text (natural ofDigits lastPlaces isPositional)

/-! ### The form of a printed decimal -/

def Numeral.signChars (negative : Bool) : List Char := if negative then ['-'] else []

/-- A number in full, with a point and places behind it or without, is positional notation. -/
theorem PositionalForm.exists_natural (n : Nat) {places? : Option (List (Option Nat))}
    (hplaces : ∀ d, some d ∈ places?.getD [] → d < 10) :
    ∃ f : PositionalForm, f.chars = natural n ++ Numeral.pointChars places? ∧
      f.places? = places? ∧ ofDigits 10 (f.whole.filterMap id) = n := by
  obtain ⟨ds, htext, hne, hlt, hvalue, -⟩ := Text.exists_natural n
  have hfirst : ∃ d, (ds.map some ++ places?.getD []).head? = some (some d) := by
    obtain ⟨d, es, rfl⟩ := List.exists_cons_of_ne_nil hne
    exact ⟨d, rfl⟩
  have hdigits : ∀ d, some d ∈ ds.map some ++ places?.getD [] → d < 10 := by
    intro d hd
    rcases List.mem_append.1 hd with hd | hd
    · exact hlt d (by simpa using hd)
    · exact hplaces d hd
  refine ⟨⟨ds.map some, places?, hdigits, hfirst⟩, ?_, rfl, ?_⟩
  · rw [htext, chars, List.map_map]
    rfl
  · rw [List.filterMap_map]
    simpa using hvalue

namespace Decimal

open Numeral (signChars pointChars)

theorem chars_eq (d : Decimal) :
    d.chars = signChars d.negative ++ natural (d.magnitude / 10 ^ d.scale) ++
      fraction d.scale d.magnitude := rfl

theorem ofPositional?_eq (negative : Bool) (f : PositionalForm) :
    ofPositional? (signChars negative ++ f.chars) = (f.numeral negative).toDecimal? := by
  have hsigns : signChars negative ∈ singleSigns ∧
      decide ('-' ∈ signChars negative) = negative := by
    cases negative <;> decide
  rw [ofPositional?, Numeral.ofChars?_eq_some_iff.2 ⟨_, hsigns.1, f, rfl, rfl⟩, hsigns.2]
  rfl

/-- The last places behind the rest of a number make up the number. -/
theorem foldl_lastPlaces (count n : Nat) :
    (lastPlaces count n).foldl (fun n d => n * 10 + d) (n / 10 ^ count) = n := by
  induction count generalizing n with
  | zero => simp [lastPlaces]
  | succ count ih =>
    have hdiv : n / 10 ^ (count + 1) = n / 10 / 10 ^ count := by
      rw [Nat.pow_succ', Nat.div_div_eq_div_mul]
    rw [lastPlaces, List.foldl_append, hdiv, ih, List.foldl_cons, List.foldl_nil]
    omega

theorem ofPositional?_chars (d : Decimal) : ofPositional? d.chars = some d.plainZero := by
  let places? : Option (List (Option Nat)) :=
    if d.scale = 0 then none else some ((lastPlaces d.scale d.magnitude).map some)
  have hfraction : fraction d.scale d.magnitude = pointChars places? := by
    unfold fraction places?
    split
    · rfl
    · rw [Text.lastDigits_eq_map, pointChars, List.map_map]
      rfl
  have hplaces : places?.getD [] = (lastPlaces d.scale d.magnitude).map some := by
    unfold places?
    split
    · rename_i hzero
      rw [hzero]
      rfl
    · rfl
  have hdigits : ∀ e, some e ∈ places?.getD [] → e < 10 := by
    intro e he
    rw [hplaces] at he
    exact Text.lt_ten_of_mem_lastPlaces (by simpa using he)
  obtain ⟨f, htext, hpoint, hwhole⟩ :=
    PositionalForm.exists_natural (d.magnitude / 10 ^ d.scale) hdigits
  have hlast : (f.places?.getD []).filterMap id = lastPlaces d.scale d.magnitude := by
    rw [hpoint, hplaces, List.filterMap_map]
    simp
  have hmagnitude : f.magnitude = d.magnitude := by
    rw [PositionalForm.magnitude_eq, hlast, hwhole, foldl_lastPlaces]
  have hscale : f.scale = d.scale := by
    rw [PositionalForm.scale, hlast, Text.length_lastPlaces]
  rw [chars_eq, hfraction, List.append_assoc, ← htext, ofPositional?_eq,
    f.toDecimal?_numeral d.negative (hscale ▸ d.scale_le) (hmagnitude ▸ d.magnitude_lt)]
  simp only [hmagnitude, hscale]

/-! ### A figure from a text -/

theorem isPositional_chars {d : Decimal} {c : Char} (hc : c ∈ d.chars) : isPositional c = true := by
  rw [chars_eq, List.mem_append, List.mem_append] at hc
  rcases hc with (hc | hc) | hc
  · unfold signChars at hc
    split at hc
    · rw [List.mem_singleton.mp hc]
      decide
    · simp at hc
  · obtain ⟨ds, htext, -, hlt, -⟩ := Text.exists_natural (d.magnitude / 10 ^ d.scale)
    rw [htext, List.mem_map] at hc
    obtain ⟨e, he, rfl⟩ := hc
    exact Text.isPositional_digitChar (hlt e he)
  · unfold fraction at hc
    split at hc
    · simp at hc
    · rw [Text.lastDigits_eq_map] at hc
      rcases List.mem_cons.mp hc with rfl | hc
      · decide
      · obtain ⟨e, he, rfl⟩ := List.mem_map.mp hc
        exact Text.isPositional_digitChar (Text.lt_ten_of_mem_lastPlaces he)

end Decimal

/-- A text of digits, points and minus signs is read as it stands. -/
theorem Literal.number?_of_positional {cs : List Char} {d : Decimal}
    (hcs : ∀ c ∈ cs, isPositional c = true) (hd : Decimal.ofPositional? cs = some d) :
    Literal.number? cs = some d := by
  have htrim : Text.trim cs = cs :=
    Text.trim_of_forall fun c hc => Text.isBlank_of_isPositional (hcs c hc)
  have hread : Decimal.ofChars? cs = some d := by simp [Decimal.ofChars?, hd]
  have henclosed : Literal.enclosed? cs = none := by
    unfold Literal.enclosed?
    split
    · exact absurd (hcs _ List.mem_cons_self) (by decide)
    · rfl
  have hplain : Literal.plain? cs = Decimal.ofChars? cs := by
    unfold Literal.plain?
    split
    · exact absurd (hcs _ List.mem_cons_self) (by decide)
    · rfl
  rw [Literal.number?, htrim, henclosed, hplain, hread]

/-- **A printed decimal is read back**, with its scale. -/
theorem Literal.parse_text (d : Decimal) : Literal.parse d.text = .ok d.plainZero := by
  have hread := Literal.number?_of_positional (fun _ => Decimal.isPositional_chars)
    (Decimal.ofPositional?_chars d)
  rw [Literal.parse, Decimal.text, String.toList_ofList, hread]

/-! ### Amounts of stock -/

namespace Decimal

open Numeral (signChars pointChars)

theorem value_dropZeros (negative : Bool) {m s : Nat} (hm : m < bound) (hs : s ≤ maxScale) :
    (dropZeros negative m s hm hs).value = signed negative m / 10 ^ s := by
  induction s generalizing m with
  | zero => exact value_mk hm hs
  | succ s ih =>
    unfold dropZeros
    split
    · rename_i hlast
      have hten : (m : ℚ) = (m / 10 : ℕ) * 10 := by
        exact_mod_cast (Nat.div_mul_cancel (Nat.dvd_of_mod_eq_zero hlast)).symm
      rw [ih, signed_cast, signed_cast, hten, pow_succ]
      field_simp
    · exact value_mk hm hs

@[simp] theorem value_normalize (d : Decimal) : d.normalize.value = d.value := by
  rw [normalize, value_plainZero, value_dropZeros, value_eq, coeff]

@[simp] theorem plainZero_plainZero (d : Decimal) : d.plainZero.plainZero = d.plainZero := by
  cases h : d.isZero <;> simp_all [plainZero, isZero]

/-- A whole number is read from its digits with a zero behind the point. -/
theorem exists_ofPositional?_whole {d : Decimal} (hd : d.scale = 0) :
    ∃ e, ofPositional? (d.chars ++ ['.', '0']) = some e ∧ e.value = d.value := by
  have hdigits : ∀ e, some e ∈ (some [some 0]).getD [] → e < 10 := by simp
  obtain ⟨f, hform, hpoint, hwhole⟩ := PositionalForm.exists_natural d.magnitude hdigits
  have htext : d.chars ++ ['.', '0'] = signChars d.negative ++ f.chars := by
    rw [hform]
    simp [chars_eq, hd, fraction, pointChars, Numeral.placeChar]
  have hvalue : d.value = signed d.negative d.magnitude := by
    rw [value_eq, coeff, hd, pow_zero, div_one]
  -- the zero is taken in where it fits, and cut where it does not
  by_cases hfits : d.magnitude * 10 < bound
  · have hplaces : Numeral.takePlaces d.magnitude 0 (f.places?.getD []) =
        some (d.magnitude * 10, 1) := by
      simp [hpoint, Numeral.takePlaces, hfits, maxScale]
    obtain ⟨e, he, hsame⟩ := exists_ofParts? d.negative hfits (s := 1) (by decide)
    refine ⟨e.plainZero, ?_, ?_⟩
    · rw [htext, ofPositional?_eq, PositionalForm.toDecimal?_of_takePlaces d.negative hwhole
        d.magnitude_lt hplaces, he]
      rfl
    · rw [value_plainZero, hsame, hvalue, signed_cast, signed_cast, pow_one]
      push_cast
      field_simp
  · have hplaces : Numeral.takePlaces d.magnitude 0 (f.places?.getD []) =
        some (d.magnitude, 0) := by
      simp [hpoint, Numeral.takePlaces, hfits, Numeral.roundAt]
    obtain ⟨e, he, hsame⟩ := exists_ofParts? d.negative d.magnitude_lt (s := 0) (by decide)
    refine ⟨e.plainZero, ?_, ?_⟩
    · rw [htext, ofPositional?_eq, PositionalForm.toDecimal?_of_takePlaces d.negative hwhole
        d.magnitude_lt hplaces, he]
      rfl
    · rw [value_plainZero, hsame, hvalue, pow_zero, div_one]

end Decimal

/-- **A written amount denotes the rounded number.** -/
theorem Literal.parse_amountText (d : Decimal) :
    ∃ e, Literal.parse (amountText d) = .ok e ∧ e.value = (roundMoney d).value := by
  unfold amountText
  by_cases hscale : (roundMoney d).normalize.scale = 0
  · obtain ⟨e, he, hvalue⟩ := Decimal.exists_ofPositional?_whole hscale
    have hpositional : ∀ c ∈ (roundMoney d).normalize.chars ++ ['.', '0'],
        isPositional c = true := by
      intro c hc
      rcases List.mem_append.mp hc with hc | hc
      · exact Decimal.isPositional_chars hc
      · simp only [List.mem_cons, List.not_mem_nil, or_false] at hc
        rcases hc with rfl | rfl <;> decide
    have htext : ((roundMoney d).normalize.text ++ ".0").toList =
        (roundMoney d).normalize.chars ++ ['.', '0'] := by
      rw [String.toList_append, Decimal.text, String.toList_ofList]
      rfl
    refine ⟨e, ?_, by rw [hvalue, Decimal.value_normalize]⟩
    simp only [hscale, if_true]
    rw [Literal.parse, htext, Literal.number?_of_positional hpositional he]
  · refine ⟨(roundMoney d).normalize, ?_, Decimal.value_normalize _⟩
    simp only [hscale, if_false]
    rw [Literal.parse_text, Decimal.normalize, Decimal.plainZero_plainZero]

end PointOfSale

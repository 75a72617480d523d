/-
  PointOfSale/Proofs/Decimal/Amount.lean
  ======================================
  **An amount has one text.**  Of the decimals for one number the normalized one has the
  fewest places and no sign on a zero (`IsReduced`), and that is enough to be the only one.
  So the text of an amount depends on the number alone, and a text that was written for an
  amount is the one that is written again after it was read (`isAmountText_amountText`).

  A text and the number of an amount determine each other: the text is read as the rounded
  number, and two amounts have one text exactly when they are rounded to one number, at
  whatever scales they stand (`amountText_eq_iff`).
-/
import PointOfSale.Proofs.Checked
import PointOfSale.Proofs.Decimal.Cents
import PointOfSale.Proofs.Decimal.Fitting
import PointOfSale.Proofs.Decimal.Printed

namespace PointOfSale

open Text (natural ofDigits lastPlaces)

namespace Decimal

/-! ### Reduced decimals -/

/-- No zero stands at the end behind the point, and no sign in front of a zero. -/
structure IsReduced (d : Decimal) : Prop where
  last : d.scale = 0 ∨ d.magnitude % 10 ≠ 0
  sign : d.isZero = true → d.negative = false

theorem last_dropZeros (negative : Bool) {m s : Nat} (hm : m < bound) (hs : s ≤ maxScale) :
    (dropZeros negative m s hm hs).scale = 0 ∨
      (dropZeros negative m s hm hs).magnitude % 10 ≠ 0 := by
  induction s generalizing m with
  | zero => exact Or.inl rfl
  | succ s ih =>
    unfold dropZeros
    split
    · exact ih _ _
    · rename_i hlast
      exact Or.inr hlast

theorem scale_dropZeros_le (negative : Bool) {m s : Nat} (hm : m < bound) (hs : s ≤ maxScale) :
    (dropZeros negative m s hm hs).scale ≤ s := by
  induction s generalizing m with
  | zero => exact Nat.le_refl 0
  | succ s ih =>
    unfold dropZeros
    split
    · exact Nat.le_succ_of_le (ih _ _)
    · exact Nat.le_refl _

theorem scale_normalize_le (d : Decimal) : d.normalize.scale ≤ d.scale :=
  scale_dropZeros_le d.negative d.magnitude_lt d.scale_le

theorem isReduced_plainZero {d : Decimal} (h : d.scale = 0 ∨ d.magnitude % 10 ≠ 0) :
    d.plainZero.IsReduced := by
  refine ⟨h, ?_⟩
  intro hzero
  have hsame : d.isZero = true := hzero
  simp [plainZero, hsame]

theorem isReduced_normalize (d : Decimal) : d.normalize.IsReduced :=
  isReduced_plainZero (last_dropZeros d.negative d.magnitude_lt d.scale_le)

variable {a b : Decimal}

theorem magnitude_mul_of_value_eq (h : a.value = b.value) :
    a.magnitude * 10 ^ b.scale = b.magnitude * 10 ^ a.scale := by
  have hsize : (a.magnitude : ℚ) / 10 ^ a.scale = b.magnitude / 10 ^ b.scale := by
    rw [← abs_value, ← abs_value, h]
  rw [div_eq_div_iff (by positivity) (by positivity)] at hsize
  exact_mod_cast hsize

/-- A reduced decimal has the fewest places. -/
theorem IsReduced.scale_le (ha : a.IsReduced) (h : a.value = b.value) : a.scale ≤ b.scale := by
  by_contra hmore
  obtain ⟨k, hk⟩ := Nat.exists_eq_add_of_lt (not_le.1 hmore)
  have hcross := magnitude_mul_of_value_eq h
  have hten : a.magnitude = b.magnitude * 10 ^ k * 10 := by
    apply Nat.eq_of_mul_eq_mul_right (Nat.pow_pos (by decide) : 0 < 10 ^ b.scale)
    rw [hcross, hk]
    ring
  rcases ha.last with hwhole | hlast
  · omega
  · apply hlast
    rw [hten]
    exact Nat.mul_mod_left _ _

/-- Two reduced decimals for one number are the same. -/
theorem IsReduced.eq_of_value_eq (ha : a.IsReduced) (hb : b.IsReduced) (h : a.value = b.value) :
    a = b := by
  have hscale : a.scale = b.scale := le_antisymm (ha.scale_le h) (hb.scale_le h.symm)
  have hmagnitude : a.magnitude = b.magnitude := by
    have hcross := magnitude_mul_of_value_eq h
    rw [hscale] at hcross
    exact Nat.eq_of_mul_eq_mul_right (Nat.pow_pos (by decide)) hcross
  have hcoeff : a.coeff = b.coeff := by
    rw [value_eq, value_eq, hscale, div_left_inj' (by positivity)] at h
    exact_mod_cast h
  have hnegative : a.negative = b.negative := by
    by_cases hzero : a.magnitude = 0
    · rw [ha.sign (by simp [isZero, hzero]), hb.sign (by simp [isZero, ← hmagnitude, hzero])]
    · rw [coeff, coeff, ← hmagnitude] at hcoeff
      cases ha' : a.negative <;> cases hb' : b.negative <;> simp [ha', hb', signed] at hcoeff ⊢ <;>
        omega
  cases a
  cases b
  cases hscale
  cases hmagnitude
  cases hnegative
  rfl

theorem normalize_eq_of_value_eq (h : a.value = b.value) : a.normalize = b.normalize := by
  apply (isReduced_normalize a).eq_of_value_eq (isReduced_normalize b)
  rw [value_normalize, value_normalize, h]

end Decimal

/-! ### The text of an amount -/

theorem amountText_eq_of_value_eq {a b : Decimal}
    (h : (roundMoney a).value = (roundMoney b).value) : amountText a = amountText b := by
  rw [amountText, amountText, Decimal.normalize_eq_of_value_eq h]

/-- The characters behind the first point of a text. -/
def placesOf (text : String) : List Char := (text.toList.dropWhile (· ≠ '.')).drop 1

/-- A text as amounts are stored: written again when it is read, with a place behind the
    point at least, and no more than an amount has. -/
structure IsAmountText (text : String) : Prop where
  steady : amountText <$> Literal.parse text = .ok text
  places : 1 ≤ (placesOf text).length ∧ (placesOf text).length ≤ moneyPlaces

theorem dropWhile_point (negative : Bool) (n : Nat) (rest : List Char) :
    (Numeral.signChars negative ++ natural n ++ rest).dropWhile (· ≠ '.') =
      rest.dropWhile (· ≠ '.') := by
  apply List.dropWhile_append_of_pos
  intro c hc
  rcases List.mem_append.1 hc with hc | hc
  · cases negative with
    | true =>
      rw [List.mem_singleton.1 hc]
      decide
    | false => cases hc
  · obtain ⟨ds, htext, -, hlt, -⟩ := Text.exists_natural n
    rw [htext, List.mem_map] at hc
    obtain ⟨d, hd, rfl⟩ := hc
    have hall : ∀ e < 10, decide (Nat.digitChar e ≠ '.') = true := by decide
    exact hall d (hlt d hd)

theorem scale_roundMoney_le (d : Decimal) : (roundMoney d).scale ≤ moneyPlaces := by
  unfold roundMoney Decimal.roundTo
  split
  · rename_i h
    exact h
  · exact Nat.le_refl _

theorem length_placesOf_amountText (d : Decimal) :
    (placesOf (amountText d)).length = max 1 (roundMoney d).normalize.scale := by
  unfold amountText placesOf
  generalize (roundMoney d).normalize = e
  by_cases hscale : e.scale = 0
  · have htext : (e.text ++ ".0").toList = Numeral.signChars e.negative ++
        natural (e.magnitude / 10 ^ e.scale) ++ ['.', '0'] := by
      rw [String.toList_append, Decimal.text, String.toList_ofList, Decimal.chars_eq,
        Decimal.fraction, if_pos hscale, List.append_nil]
      rfl
    rw [if_pos hscale, htext, dropWhile_point, hscale]
    rfl
  · have hlength : ((Decimal.fraction e.scale e.magnitude).dropWhile (· ≠ '.')).drop 1 =
        Text.lastDigits 10 e.scale e.magnitude := by
      rw [Decimal.fraction, if_neg hscale]
      rfl
    rw [if_neg hscale, Decimal.text, String.toList_ofList, Decimal.chars_eq, dropWhile_point,
      hlength, Text.length_lastDigits, max_eq_right (Nat.one_le_iff_ne_zero.2 hscale)]

/-- **A written amount is steady**: reading it and writing it again changes nothing. -/
theorem isAmountText_amountText (d : Decimal) : IsAmountText (amountText d) := by
  constructor
  · obtain ⟨e, he, hvalue⟩ := Literal.parse_amountText d
    have hcents : IsCents e.value := by
      rw [hvalue]
      exact isCents_roundMoney d
    rw [he, ok_map, amountText_eq_of_value_eq ((value_roundMoney_of_isCents hcents).trans hvalue)]
  · have hscale : (roundMoney d).normalize.scale ≤ moneyPlaces :=
      (Decimal.scale_normalize_le _).trans (scale_roundMoney_le d)
    rw [length_placesOf_amountText]
    exact ⟨le_max_left _ _, max_le (by decide) hscale⟩

/-! ### Text and number -/

/-- Amounts have one text exactly when they are rounded to one number. -/
theorem amountText_eq_iff {a b : Decimal} :
    amountText a = amountText b ↔ (roundMoney a).value = (roundMoney b).value := by
  constructor
  · intro h
    obtain ⟨x, hx, hxvalue⟩ := Literal.parse_amountText a
    obtain ⟨y, hy, hyvalue⟩ := Literal.parse_amountText b
    rw [h, hy] at hx
    cases hx
    exact hxvalue.symm.trans hyvalue
  · exact amountText_eq_of_value_eq

/-! ### The form of the text

It has digits without a zero in front, a point, and one place or two of which the last
counts.  The minus sign stands in front of a digit that is not zero, so a tiny negative
amount has none. -/

/-- The digits of an amount as it is written. -/
structure AmountNumeral where
  negative : Bool
  whole : List Nat
  places : List Nat
  lt_ten : ∀ d ∈ whole ++ places, d < 10
  whole_ne_nil : whole ≠ []
  /-- Only zero begins with a zero. -/
  leading : whole.head? = some 0 → whole = [0]
  trailing : places.length = 1 ∨ places.length = 2 ∧ places.getLast? ≠ some 0
  /-- Zero is not negative. -/
  sign : negative = true → ∃ d ∈ whole ++ places, d ≠ 0

def AmountNumeral.chars (n : AmountNumeral) : List Char :=
  Numeral.signChars n.negative ++ n.whole.map Nat.digitChar ++
    '.' :: n.places.map Nat.digitChar

namespace Decimal

variable {d : Decimal}

theorem IsReduced.magnitude_ne_zero (hd : d.IsReduced) (h : d.negative = true) :
    d.magnitude ≠ 0 := by
  intro hzero
  rw [hd.sign (by simp [isZero, hzero])] at h
  cases h

/-- A whole number is written with one zero behind the point. -/
theorem IsReduced.exists_numeral_whole (hd : d.IsReduced) (hscale : d.scale = 0) :
    ∃ n : AmountNumeral, d.chars ++ ['.', '0'] = n.chars := by
  obtain ⟨ds, htext, hne, hlt, hvalue, hleading⟩ := Text.exists_natural d.magnitude
  have hdigits : ∀ e ∈ ds ++ [0], e < 10 := by
    intro e he
    rcases List.mem_append.1 he with he | he
    · exact hlt e he
    · rw [List.mem_singleton.1 he]
      decide
  have hsign : d.negative = true → ∃ e ∈ ds ++ [0], e ≠ 0 := by
    intro hnegative
    have hnonzero : ofDigits 10 ds ≠ 0 := by
      rw [hvalue]
      exact hd.magnitude_ne_zero hnegative
    obtain ⟨e, he, hne⟩ := Text.exists_ne_zero_of_ofDigits hnonzero
    exact ⟨e, List.mem_append_left _ he, hne⟩
  refine ⟨⟨d.negative, ds, [0], hdigits, hne, hleading, Or.inl rfl, hsign⟩, ?_⟩
  rw [chars_eq, fraction, if_pos hscale, hscale, pow_zero, Nat.div_one, htext, List.append_nil]
  rfl

/-- Where there are places, the last of them is not zero. -/
theorem IsReduced.exists_numeral_places (hd : d.IsReduced) (hscale : d.scale ≠ 0)
    (hplaces : d.scale ≤ 2) : ∃ n : AmountNumeral, d.chars = n.chars := by
  obtain ⟨ds, htext, hne, hlt, -, hleading⟩ :=
    Text.exists_natural (d.magnitude / 10 ^ d.scale)
  have hlast : d.magnitude % 10 ≠ 0 := hd.last.resolve_left hscale
  have hend := Text.getLast?_lastPlaces hscale d.magnitude
  have hdigits : ∀ e ∈ ds ++ lastPlaces d.scale d.magnitude, e < 10 := by
    intro e he
    rcases List.mem_append.1 he with he | he
    · exact hlt e he
    · exact Text.lt_ten_of_mem_lastPlaces he
  have htrailing : (lastPlaces d.scale d.magnitude).length = 1 ∨
      (lastPlaces d.scale d.magnitude).length = 2 ∧
        (lastPlaces d.scale d.magnitude).getLast? ≠ some 0 := by
    rw [Text.length_lastPlaces, hend]
    have hcount : d.scale = 1 ∨ d.scale = 2 := by omega
    exact hcount.imp_right fun htwo => ⟨htwo, by simpa using hlast⟩
  have hsign : d.negative = true → ∃ e ∈ ds ++ lastPlaces d.scale d.magnitude, e ≠ 0 :=
    fun _ => ⟨_, List.mem_append_right _ (List.mem_of_getLast? hend), hlast⟩
  refine ⟨⟨d.negative, ds, lastPlaces d.scale d.magnitude, hdigits, hne, hleading, htrailing,
    hsign⟩, ?_⟩
  rw [chars_eq, fraction, if_neg hscale, htext, Text.lastDigits_eq_map]
  rfl

end Decimal

theorem exists_numeral_amountText (d : Decimal) :
    ∃ n : AmountNumeral, (amountText d).toList = n.chars := by
  have hreduced := Decimal.isReduced_normalize (roundMoney d)
  have hplaces : (roundMoney d).normalize.scale ≤ 2 :=
    (Decimal.scale_normalize_le _).trans (scale_roundMoney_le d)
  unfold amountText
  by_cases hscale : (roundMoney d).normalize.scale = 0
  · obtain ⟨n, hn⟩ := hreduced.exists_numeral_whole hscale
    refine ⟨n, ?_⟩
    simp only [hscale, if_true]
    rw [String.toList_append, Decimal.text, String.toList_ofList, ← hn]
    rfl
  · obtain ⟨n, hn⟩ := hreduced.exists_numeral_places hscale hplaces
    refine ⟨n, ?_⟩
    simp only [hscale, if_false]
    rw [Decimal.text, String.toList_ofList, hn]

/-- **Text and number of an amount determine each other.**  The text of any decimal is read as
    the rounded number, no other number has this text, and it has the form of an amount. -/
theorem amountText_determines (d : Decimal) :
    (∃ e, Literal.parse (amountText d) = .ok e ∧ e.value = (roundMoney d).value) ∧
    (∀ e, amountText d = amountText e ↔ (roundMoney d).value = (roundMoney e).value) ∧
    ∃ n : AmountNumeral, (amountText d).toList = n.chars :=
  ⟨Literal.parse_amountText d, fun _ => amountText_eq_iff, exists_numeral_amountText d⟩

-- A tiny negative number loses its sign, and the greatest decimal has no room for the zero.
example : amountText ⟨true, 4, 3, by decide, by decide⟩ = "0.0" ∧
    amountText ⟨false, 2 ^ 96 - 1, 0, by decide, by decide⟩ =
      "79228162514264337593543950335.0" := by
  decide +kernel

end PointOfSale

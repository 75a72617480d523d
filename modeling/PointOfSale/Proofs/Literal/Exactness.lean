/-
  PointOfSale/Proofs/Literal/Exactness.lean
  =========================================
  **Figures that are read exactly.**  Where all digits of a number fit into a coefficient,
  none behind the point is too many and the power of ten leaves the number in range, what
  is read is the number that the text denotes.  The ratio of two such numbers is exact
  where some decimal is, and a ratio with zero is refused (`parse_exact`).
-/
import PointOfSale.Proofs.Decimal.Quotient
import PointOfSale.Proofs.Literal.Notation

namespace PointOfSale

open Decimal (bound maxScale signed)
open Text (ofDigits trim)

/-! ### Powers of ten -/

namespace Decimal

variable {d : Decimal} {power : Nat}

theorem exists_lowerBy (h : d.scale + power ≤ maxScale) :
    ∃ e, d.lowerBy power = some e ∧ e.value = d.value / 10 ^ power := by
  obtain ⟨e, he, hvalue⟩ := exists_ofParts? d.negative d.magnitude_lt h
  refine ⟨e, ?_, ?_⟩
  · rw [lowerBy, if_pos h, he]
  · rw [hvalue, value_eq, coeff, pow_add, div_div]

theorem exists_raiseBy (h : |d.value * 10 ^ power| < bound) :
    ∃ e, d.raiseBy power = some e ∧ e.value = d.value * 10 ^ power := by
  have hscale : (10 : ℚ) ^ d.scale ≠ 0 := by positivity
  unfold raiseBy
  by_cases hle : power ≤ d.scale
  · -- the scale shrinks and the coefficient stays
    obtain ⟨e, he, hvalue⟩ := exists_ofParts? d.negative d.magnitude_lt
      (le_trans (Nat.sub_le d.scale power) d.scale_le)
    refine ⟨e, by rw [if_pos hle, he], ?_⟩
    have hsplit : (10 : ℚ) ^ d.scale = 10 ^ (d.scale - power) * 10 ^ power := by
      rw [← pow_add, Nat.sub_add_cancel hle]
    rw [hvalue, value_eq, coeff, hsplit]
    field_simp
  · have hsplit : (10 : ℚ) ^ power = 10 ^ (power - d.scale) * 10 ^ d.scale := by
      rw [← pow_add, Nat.sub_add_cancel (by omega)]
    have hwhole : d.value * 10 ^ power = d.coeff * 10 ^ (power - d.scale) := by
      rw [value_eq, hsplit]
      field_simp
    have hfits : d.magnitude * 10 ^ (power - d.scale) < bound := by
      have hsize : |d.value * 10 ^ power| = d.magnitude * 10 ^ (power - d.scale) := by
        rw [abs_mul, abs_value, abs_of_pos (by positivity : (0 : ℚ) < 10 ^ power), hsplit]
        field_simp
      rw [hsize] at h
      exact_mod_cast h
    obtain ⟨e, he, hvalue⟩ := exists_ofParts? d.negative hfits (Nat.zero_le maxScale)
    refine ⟨e, by rw [if_neg hle, he], ?_⟩
    rw [hvalue, hwhole, coeff, signed_cast, signed_cast, pow_zero, div_one]
    push_cast
    ring

end Decimal

/-! ### Plain numbers -/

namespace PlainForm

def exponent (n : PlainForm) : ℤ :=
  match n.power? with
  | none => 0
  | some p => if p.isNegative then -p.size else p.size

def value (n : PlainForm) : ℚ :=
  signed (decide ('-' ∈ n.signs)) n.body.magnitude * 10 ^ (n.exponent - n.body.scale)

/-- Digits and power leave room for a decimal. -/
structure InRange (n : PlainForm) : Prop where
  places : n.body.scale ≤ maxScale
  digits : n.body.magnitude < bound
  exponent : |n.exponent| ≤ maxScale
  shifted : n.body.scale - n.exponent ≤ maxScale
  size : |n.value| < bound

/-- **A number in range is read exactly.** -/
theorem InRange.exists_number? {n : PlainForm} (h : n.InRange) :
    ∃ d, n.number? = some d ∧ d.value = n.value := by
  obtain ⟨d, hd, hscale, hvalue⟩ : ∃ d : Decimal,
      (n.body.numeral (decide ('-' ∈ n.signs))).toDecimal? = some d ∧ d.scale = n.body.scale ∧
        n.value = d.value * 10 ^ n.exponent := by
    refine ⟨_, n.body.toDecimal?_numeral _ h.places h.digits, rfl, ?_⟩
    rw [Decimal.value_plainZero, Decimal.value_mk, value, zpow_sub₀ (by norm_num), zpow_natCast]
    ring
  have hexponent := h.exponent
  have hshifted := h.shifted
  have hsize := h.size
  rw [hvalue] at hsize ⊢
  unfold number?
  rw [hd, Option.bind_eq_bind, Option.bind_some]
  cases hpower : n.power? with
  | none =>
    refine ⟨d, rfl, ?_⟩
    simp [PlainForm.exponent, hpower]
  | some p =>
    cases hsign : p.isNegative with
    | true =>
      have hexp : n.exponent = -p.size := by simp [PlainForm.exponent, hpower, hsign]
      rw [hexp] at hexponent hshifted ⊢
      have hpower : p.size ≤ maxScale := by
        rw [abs_neg, Nat.abs_cast] at hexponent
        exact_mod_cast hexponent
      have hroom : d.scale + p.size ≤ maxScale := by omega
      obtain ⟨e, he, hevalue⟩ := Decimal.exists_lowerBy hroom
      refine ⟨e, ?_, ?_⟩
      · simp only [hsign, if_neg (Nat.not_lt.mpr hpower), if_true]
        exact he
      · rw [hevalue, zpow_neg, zpow_natCast, div_eq_mul_inv]
    | false =>
      have hexp : n.exponent = p.size := by simp [PlainForm.exponent, hpower, hsign]
      rw [hexp] at hexponent hsize ⊢
      have hpower : p.size ≤ maxScale := by
        rw [Nat.abs_cast] at hexponent
        exact_mod_cast hexponent
      rw [zpow_natCast] at hsize ⊢
      obtain ⟨e, he, hevalue⟩ := Decimal.exists_raiseBy hsize
      refine ⟨e, ?_, hevalue⟩
      simp only [hsign, if_neg (Nat.not_lt.mpr hpower)]
      exact he

end PlainForm

namespace Literal

variable {text : String}

theorem parse_eq_of_number? (text : String) :
    parse text = (number? text.toList).elim (.error (.invalidNumericLiteral text)) .ok := by
  unfold parse
  cases number? text.toList <;> rfl

theorem exists_parse_plain {n : PlainForm} (hsigns : n.IsSingleSigned) (hrange : n.InRange)
    (htext : trim text.toList = n.chars) : ∃ d, parse text = .ok d ∧ d.value = n.value := by
  obtain ⟨d, hd, hvalue⟩ := hrange.exists_number?
  exact ⟨d, parse_eq_ok_iff.2 ⟨.plain n, hsigns.isReadable, htext, hd⟩, hvalue⟩

section Ratio

variable {a b : PaddedForm} (ha : a.number.IsSingleSigned) (hb : b.number.IsSingleSigned)
  (harange : a.number.InRange) (hbrange : b.number.InRange)
  (htext : trim text.toList = (FigureForm.ratio a b).chars)

include ha hb harange hbrange htext

theorem exists_number?_ratio :
    ∃ x y : Decimal, x.value = a.number.value ∧ y.value = b.number.value ∧
      number? text.toList = x.div? y := by
  obtain ⟨x, hx, hxvalue⟩ := harange.exists_number?
  obtain ⟨y, hy, hyvalue⟩ := hbrange.exists_number?
  exact ⟨x, y, hxvalue, hyvalue, number?_of_ratio htext ha.isReadable hb.isReadable hx hy⟩

theorem parse_ratio_zero (hzero : b.number.value = 0) :
    parse text = .error (.invalidNumericLiteral text) := by
  obtain ⟨x, y, -, hy, hread⟩ := exists_number?_ratio ha hb harange hbrange htext
  have hnone : x.div? y = none := by
    rw [Decimal.div?, if_pos (Decimal.isZero_iff.2 (hy.trans hzero))]
  rw [parse_eq_of_number?, hread, hnone]
  rfl

theorem exists_parse_ratio (hzero : b.number.value ≠ 0)
    (hheld : ∃ q : Decimal, q.value = a.number.value / b.number.value) :
    ∃ d, parse text = .ok d ∧ d.value = a.number.value / b.number.value := by
  obtain ⟨x, y, hx, hy, hread⟩ := exists_number?_ratio ha hb harange hbrange htext
  obtain ⟨q, hq⟩ := hheld
  rw [← hx, ← hy] at hq ⊢
  have hnonzero : y.isZero = false := by
    rw [← Bool.not_eq_true, Decimal.isZero_iff, hy]
    exact hzero
  obtain ⟨d, hd, hvalue⟩ := Decimal.div?_of_heldAt q.scale_le hnonzero (hq ▸ q.heldAt_value)
  refine ⟨d, ?_, hvalue⟩
  rw [parse_eq_of_number?, hread, hd]
  rfl

end Ratio

/-- **Figures in range are read exactly**: a number as itself, and a ratio as the exact
    quotient where some decimal is that quotient.  A ratio with zero is refused. -/
theorem parse_exact (text : String) :
    (∀ n : PlainForm, n.IsSingleSigned → n.InRange → trim text.toList = n.chars →
      ∃ d, parse text = .ok d ∧ d.value = n.value) ∧
    ∀ a b : PaddedForm, a.number.IsSingleSigned → b.number.IsSingleSigned →
      a.number.InRange → b.number.InRange →
      trim text.toList = (FigureForm.ratio a b).chars →
      (b.number.value = 0 → parse text = .error (.invalidNumericLiteral text)) ∧
      (b.number.value ≠ 0 → (∃ q : Decimal, q.value = a.number.value / b.number.value) →
        ∃ d, parse text = .ok d ∧ d.value = a.number.value / b.number.value) := by
  refine ⟨?_, ?_⟩
  · intro n hsigns hrange htext
    exact exists_parse_plain hsigns hrange htext
  · intro a b ha hb harange hbrange htext
    refine ⟨?_, ?_⟩
    · intro hzero
      exact parse_ratio_zero ha hb harange hbrange htext hzero
    · intro hzero hheld
      exact exists_parse_ratio ha hb harange hbrange htext hzero hheld

namespace Sample

/-- A one-digit number behind a blank. -/
def digit (d : Fin 10) : PaddedForm where
  before := [' ']
  number := ⟨[], ⟨[some d.val], none, by simp, ⟨d, rfl⟩⟩, none⟩
  after := []
  blank := Text.forall_mem_of_all (by decide)

/-- The number `-1.25E+3`. -/
def shifted : PlainForm :=
  ⟨['-'], ⟨[some 1], some [some 2, some 5], by simp, ⟨1, rfl⟩⟩,
    some ⟨'E', ['+'], [3], by decide, by decide, by decide⟩⟩

theorem value_digit (d : Fin 10) : (digit d).number.value = d.val := by
  have hmagnitude : (digit d).number.body.magnitude = d.val := Nat.zero_add _
  rw [PlainForm.value, hmagnitude, Decimal.signed_cast]
  simp [PlainForm.exponent, PositionalForm.scale, digit]

theorem inRange_digit (d : Fin 10) : (digit d).number.InRange where
  places := Nat.zero_le _
  digits := by
    have hsmall : ∀ d : Fin 10, (digit d).number.body.magnitude < bound := by decide
    exact hsmall d
  exponent := by decide +revert
  shifted := by decide +revert
  size := by
    have hsmall : ∀ d : Fin 10, d.val < bound := by decide
    rw [value_digit, Nat.abs_cast]
    exact_mod_cast hsmall d

theorem isSingleSigned_digit (d : Fin 10) : (digit d).number.IsSingleSigned :=
  ⟨by decide +revert, by simp [digit]⟩

theorem value_shifted : shifted.value = -1250 := by
  have hcoeff : signed (decide ('-' ∈ shifted.signs)) shifted.body.magnitude = -125 := by decide
  have hpower : shifted.exponent - shifted.body.scale = 1 := by decide
  rw [PlainForm.value, hcoeff, hpower]
  norm_num

end Sample

/-- A power moves the point, a quarter has a decimal, and nothing is divided by zero. -/
theorem parse_quarter_exact :
    (Sample.shifted.InRange ∧ ∃ d, parse "\t-1.25E+3 " = .ok d ∧ d.value = -1250) ∧
    (∃ d, parse "( 1/ 4)" = .ok d ∧ d.value = 1 / 4) ∧
    parse " ( 7/ 0)" = .error (.invalidNumericLiteral " ( 7/ 0)") := by
  have hshifted : Sample.shifted.InRange :=
    ⟨by decide, by decide, by decide, by decide, by rw [Sample.value_shifted]; norm_num [bound]⟩
  have hplain := (parse_exact "\t-1.25E+3 ").1 Sample.shifted ⟨by decide, by decide⟩ hshifted
    (by decide +kernel)
  have hratio := fun text p q => (parse_exact text).2 (Sample.digit p) (Sample.digit q)
    (Sample.isSingleSigned_digit p) (Sample.isSingleSigned_digit q)
    (Sample.inRange_digit p) (Sample.inRange_digit q)
  have hquarter := (hratio "( 1/ 4)" 1 4 (by decide +kernel)).2
  have hzero := (hratio " ( 7/ 0)" 7 0 (by decide +kernel)).1
  simp only [Sample.value_digit, Sample.value_shifted] at hplain hquarter hzero
  refine ⟨⟨hshifted, hplain⟩, ?_, hzero (by norm_num)⟩
  have hheld : (Decimal.mk false 25 2 (by decide) (by decide)).value = 1 / 4 := by
    rw [Decimal.value_mk, Decimal.signed_cast]
    norm_num
  obtain ⟨d, hd, hvalue⟩ := hquarter (by decide) ⟨_, hheld.trans (by norm_num)⟩
  exact ⟨d, hd, hvalue.trans (by norm_num)⟩

end Literal

end PointOfSale

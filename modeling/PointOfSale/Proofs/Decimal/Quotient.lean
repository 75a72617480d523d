/-
  PointOfSale/Proofs/Decimal/Quotient.lean
  ========================================
  **What a division gives.**  A long division stops where nothing is left, or else at the
  last place, so a quotient that some decimal holds is met (`div?_of_heldAt`).

  A division that comes to rest before the finest place of its quotient is exact, and any
  other is rounded there.  So a quotient is the exact one, fitted (`value_div?_eq_fitted`):
  the scales of dividend and divisor have no say in it, and it lies within half a unit of the
  last place that is kept (`abs_value_div?_sub_le`).  A hundredth part is there for every
  decimal.
-/
import PointOfSale.Decimal.Arithmetic
import PointOfSale.Proofs.Decimal.Fitting

namespace PointOfSale.Decimal

/-! ### Zeros at the end -/

theorem value_dropZeroBlock (count : Nat) (d : Decimal) :
    (d.dropZeroBlock count).value = d.value := by
  unfold dropZeroBlock
  split
  · rename_i h
    obtain ⟨hscale, hrest⟩ := h
    have hpow : (10 : ℚ) ^ count ≠ 0 := by positivity
    have hwhole : (d.magnitude : ℚ) = (d.magnitude / 10 ^ count : ℕ) * 10 ^ count := by
      exact_mod_cast (Nat.div_mul_cancel (Nat.dvd_of_mod_eq_zero hrest)).symm
    have hsplit : (10 : ℚ) ^ d.scale = 10 ^ (d.scale - count) * 10 ^ count := by
      rw [← pow_add, Nat.sub_add_cancel hscale]
    rw [value_mk, value_eq, coeff, signed_cast, signed_cast, hsplit, hwhole, ← mul_assoc,
      mul_div_mul_right _ _ hpow]
  · rfl

theorem value_dropLongBlock (d : Decimal) : d.dropLongBlock.value = d.value := by
  unfold dropLongBlock
  split
  · exact value_dropZeroBlock 8 d
  · rfl

theorem value_dropZeroBlocks (d : Decimal) : d.dropZeroBlocks.value = d.value := by
  simp only [dropZeroBlocks, value_dropZeroBlock, value_dropLongBlock]

/-! ### Quotients of coefficients -/

variable {a b : Decimal}

/-- The quotient of two decimals as a quotient of naturals. -/
theorem value_div_eq (a b : Decimal) :
    a.value / b.value =
      ((signed (a.negative != b.negative) (a.magnitude * 10 ^ b.scale) : ℤ) : ℚ) /
        ((b.magnitude * 10 ^ a.scale : ℕ) : ℚ) := by
  rw [value_eq, value_eq, coeff, coeff, signed_cast, signed_cast, signed_cast]
  push_cast
  cases a.negative <;> cases b.negative <;> simp <;> field_simp

theorem denominator_pos (hb : b.isZero = false) (a : Decimal) :
    0 < b.magnitude * 10 ^ a.scale := by
  have hmagnitude : b.magnitude ≠ 0 := by simpa [isZero] using hb
  positivity

/-- A division of numbers other than zero is a search for the finest decimal, at the scale
    at which it comes to rest, up to zeros at the end. -/
theorem map_value_div? (ha : a.isZero = false) (hb : b.isZero = false) :
    (a.div? b).map value =
      (nearest? (a.negative != b.negative) (a.magnitude * 10 ^ b.scale)
        (b.magnitude * 10 ^ a.scale) (restingScale a b)).map value := by
  unfold div?
  simp only [ha, hb, Bool.false_eq_true, if_false]
  split
  · rfl
  · rw [Option.map_map]
    congr 1
    funext q
    rw [Function.comp_apply, value_plainZero, value_dropZeroBlocks]

/-! ### Quotients that a decimal holds -/

/-- A division that comes to rest before the last place leaves nothing. -/
theorem dvd_of_restingScale_lt (h : restingScale a b < maxScale) :
    b.magnitude * 10 ^ a.scale ∣ a.magnitude * 10 ^ b.scale * 10 ^ restingScale a b := by
  unfold restingScale at h ⊢
  cases hstrides : strides? a.magnitude b.magnitude with
  | none =>
    rw [hstrides] at h
    exact absurd h (lt_irrefl _)
  | some n =>
    rw [hstrides] at h
    simp only [min_lt_iff, lt_irrefl, false_or] at h ⊢
    have hrest : a.magnitude * 10 ^ (stride * n) % b.magnitude = 0 := by
      simpa using List.find?_some hstrides
    have hdvd : b.magnitude ∣ a.magnitude * 10 ^ (stride * n) := Nat.dvd_of_mod_eq_zero hrest
    rw [min_eq_right h.le, mul_assoc, ← pow_add]
    have hpow : 10 ^ (stride * n) * 10 ^ a.scale ∣
        10 ^ (b.scale + (a.scale + stride * n - b.scale)) := by
      rw [← pow_add]
      exact Nat.pow_dvd_pow 10 (by omega)
    calc b.magnitude * 10 ^ a.scale
        ∣ a.magnitude * 10 ^ (stride * n) * 10 ^ a.scale := Nat.mul_dvd_mul_right hdvd _
      _ = a.magnitude * (10 ^ (stride * n) * 10 ^ a.scale) := mul_assoc _ _ _
      _ ∣ a.magnitude * 10 ^ (b.scale + (a.scale + stride * n - b.scale)) :=
        Nat.mul_dvd_mul_left _ hpow

section Held

variable {negative : Bool} {num den places : Nat}

theorem abs_signed_div (negative : Bool) (num den : Nat) :
    |((signed negative num : ℤ) : ℚ) / den| = num / den := by
  rw [signed_cast, abs_div, abs_mul, Nat.abs_cast, Nat.abs_cast]
  cases negative <;> simp

theorem dvd_of_heldAt (hden : 0 < den)
    (h : HeldAt places (((signed negative num : ℤ) : ℚ) / den)) : den ∣ num * 10 ^ places := by
  have hden0 : (den : ℚ) ≠ 0 := by exact_mod_cast hden.ne'
  obtain ⟨n, hn⟩ := h.exists_int
  have hsize : |(n : ℚ)| = num / den * 10 ^ places := by
    rw [← hn, abs_mul, abs_signed_div, abs_of_pos (by positivity : (0 : ℚ) < 10 ^ places)]
  have hrat : ((num * 10 ^ places : ℕ) : ℚ) = ((n.natAbs * den : ℕ) : ℚ) := by
    push_cast
    rw [Nat.cast_natAbs, Int.cast_abs, hsize]
    field_simp
  exact ⟨n.natAbs, by rw [Nat.mul_comm den]; exact_mod_cast hrat⟩

theorem coefficient_lt_of_heldAt (hden : 0 < den)
    (h : HeldAt places (((signed negative num : ℤ) : ℚ) / den)) {fitting : Nat}
    (hle : fitting ≤ places) : num * 10 ^ fitting / den < bound := by
  have hden0 : (0 : ℚ) < den := by exact_mod_cast hden
  have hbelow : (num : ℚ) * 10 ^ places < bound * den := by
    have hroom := h.below
    rwa [abs_signed_div, div_mul_eq_mul_div, div_lt_iff₀ hden0] at hroom
  have hnat : num * 10 ^ places < bound * den := by exact_mod_cast hbelow
  have hpow : 10 ^ fitting ≤ 10 ^ places := Nat.pow_le_pow_right (by decide) hle
  rw [Nat.div_lt_iff_lt_mul hden]
  exact lt_of_le_of_lt (Nat.mul_le_mul_left _ hpow) hnat

/-- The search meets a quotient that a decimal holds, if it starts at a scale that leaves
    nothing or not before the places of that decimal. -/
theorem nearest?_of_held {scale : Nat} (hden : 0 < den) (hplaces : places ≤ maxScale)
    (h : HeldAt places (((signed negative num : ℤ) : ℚ) / den))
    (hrest : scale < maxScale → den ∣ num * 10 ^ scale) :
    ∃ d, nearest? negative num den scale = some d ∧
      d.value = (signed negative num : ℤ) / den := by
  rcases le_or_gt places scale with hle | hlt
  · exact nearest?_of_dvd negative hden hle hplaces (dvd_of_heldAt hden h)
      (coefficient_lt_of_heldAt hden h le_rfl)
  · have hbefore : scale < maxScale := lt_of_lt_of_le hlt hplaces
    exact nearest?_of_dvd negative hden le_rfl hbefore.le (hrest hbefore)
      (coefficient_lt_of_heldAt hden h hlt.le)

end Held

/-- **A quotient that a decimal holds is exact.** -/
theorem div?_of_heldAt {places : Nat} (hplaces : places ≤ maxScale) (hb : b.isZero = false)
    (h : HeldAt places (a.value / b.value)) :
    ∃ d, a.div? b = some d ∧ d.value = a.value / b.value := by
  cases ha : a.isZero with
  | true => exact ⟨zero, by simp [div?, ha, hb], by simp [isZero_iff.1 ha]⟩
  | false =>
    rw [value_div_eq] at h ⊢
    obtain ⟨d, hd, hvalue⟩ :=
      nearest?_of_held (denominator_pos hb a) hplaces h dvd_of_restingScale_lt
    have hsame := map_value_div? ha hb
    rw [hd, Option.map_some, Option.map_eq_some_iff] at hsame
    obtain ⟨q, hq, hqd⟩ := hsame
    exact ⟨q, hq, hqd.trans hvalue⟩

/-! ### Scales of quotients -/

theorem magnitude_nearest? {negative : Bool} {num den scale : Nat} {d : Decimal}
    (h : nearest? negative num den scale = some d) :
    d.magnitude = roundHalfEven (num * 10 ^ d.scale) den := by
  have hparts : ∀ s, ofParts? negative (roundHalfEven (num * 10 ^ s) den) s = some d →
      d.magnitude = roundHalfEven (num * 10 ^ d.scale) den := by
    intro s hs
    obtain ⟨hm, hscale, rfl⟩ := ofParts?_eq_some_iff.1 hs
    rfl
  induction scale with
  | zero => exact hparts 0 (by simpa [nearest?] using h)
  | succ s ih =>
    rw [nearest?] at h
    cases hs : ofParts? negative (roundHalfEven (num * 10 ^ (s + 1)) den) (s + 1) with
    | some e =>
      rw [hs] at h
      obtain rfl : e = d := by simpa using h
      exact hparts (s + 1) hs
    | none =>
      rw [hs] at h
      exact ih h

theorem scale_nearest?_le {negative : Bool} {num den scale : Nat} {d : Decimal} (hden : 0 < den)
    (h : nearest? negative num den scale = some d) :
    d.scale ≤ finestScale ((signed negative num : ℤ) / den) := by
  refine le_finestScale d.scale_le ((roundHalfEven_lt_bound_iff negative hden d.scale).1 ?_)
  rw [← magnitude_nearest? h]
  exact d.magnitude_lt

theorem scale_dropZeroBlock_le (count : Nat) (d : Decimal) :
    (d.dropZeroBlock count).scale ≤ d.scale := by
  unfold dropZeroBlock
  split
  · exact Nat.sub_le _ _
  · exact le_rfl

theorem scale_dropLongBlock_le (d : Decimal) : d.dropLongBlock.scale ≤ d.scale := by
  unfold dropLongBlock
  split
  · exact scale_dropZeroBlock_le 8 d
  · exact le_rfl

theorem scale_dropZeroBlocks_le (d : Decimal) : d.dropZeroBlocks.scale ≤ d.scale := by
  unfold dropZeroBlocks
  exact (scale_dropZeroBlock_le 1 _).trans <| (scale_dropZeroBlock_le 2 _).trans <|
    (scale_dropZeroBlock_le 4 _).trans <| (scale_dropLongBlock_le _).trans <|
    (scale_dropLongBlock_le _).trans (scale_dropLongBlock_le d)

variable {q : Decimal}

/-- No quotient has more places than its number has room for. -/
theorem scale_div?_le (h : a.div? b = some q) : q.scale ≤ finestScale (a.value / b.value) := by
  cases hb : b.isZero with
  | true => simp [div?, hb] at h
  | false =>
    cases ha : a.isZero with
    | true =>
      obtain rfl : zero = q := by simpa [div?, ha, hb] using h
      exact Nat.zero_le _
    | false =>
      have hden := denominator_pos hb a
      simp only [div?, ha, hb, Bool.false_eq_true, if_false] at h
      rw [value_div_eq]
      split at h
      · exact scale_nearest?_le hden h
      · obtain ⟨d, hd, rfl⟩ := Option.map_eq_some_iff.1 h
        exact (scale_dropZeroBlocks_le d).trans (scale_nearest?_le hden hd)

/-! ### Quotients are fitted -/

/-- **A quotient is the exact one, fitted.** -/
theorem value_div?_eq_fitted (h : a.div? b = some q) : q.value = fitted (a.value / b.value) := by
  cases hb : b.isZero with
  | true => simp [div?, hb] at h
  | false =>
    cases ha : a.isZero with
    | true =>
      obtain rfl : zero = q := by simpa [div?, ha, hb] using h
      simp [isZero_iff.1 ha]
    | false =>
      have hsame := map_value_div? ha hb
      rw [h, Option.map_some, eq_comm, Option.map_eq_some_iff] at hsame
      obtain ⟨d, hd, hvalue⟩ := hsame
      have hden := denominator_pos hb a
      obtain ⟨s, hle, hs, hroom, hfiner, hrounded⟩ := nearest?_eq_some hden hd
      have hquotient := value_div_eq a b
      rw [← hquotient] at hroom hfiner hrounded
      rw [← hvalue, hrounded]
      have hbelow : s ≤ finestScale (a.value / b.value) := le_finestScale hs hroom
      rcases hbelow.lt_or_eq with hlt | heq
      · -- the division came to rest before the finest place, so nothing was left
        have hfits : |a.value / b.value| < sizeLimit := by
          simpa using fits_of_le (Nat.zero_le s) hroom
        have hrest : restingScale a b = s := by
          by_contra hne
          have hnext := fits_of_le (Nat.succ_le_of_lt hlt) (fits_finestScale hfits)
          exact absurd hnext (not_lt.2 (hfiner (s + 1) (Nat.lt_succ_self s) (by omega)
            (le_trans hlt (finestScale_le _))))
        have hdvd := dvd_of_restingScale_lt
          (hrest.trans_lt (lt_of_lt_of_le hlt (finestScale_le _)))
        rw [hrest] at hdvd
        have hint : a.value / b.value * 10 ^ s =
            ((signed (a.negative != b.negative)
              (a.magnitude * 10 ^ b.scale * 10 ^ s / (b.magnitude * 10 ^ a.scale)) : ℤ) : ℚ) := by
          have hden0 : ((b.magnitude * 10 ^ a.scale : ℕ) : ℚ) ≠ 0 := by exact_mod_cast hden.ne'
          rw [hquotient, signed_cast, signed_cast, Nat.cast_div hdvd hden0]
          push_cast
          ring
        rw [fitted, halfEven_div_of_int hint le_rfl, halfEven_div_of_int hint hbelow]
      · rw [fitted, heq]

/-- A quotient is within half a unit of its last place. -/
theorem abs_value_div?_sub_le (h : a.div? b = some q) :
    |q.value - a.value / b.value| ≤ 1 / 2 / 10 ^ q.scale := by
  have hpow : (10 : ℚ) ^ q.scale ≤ 10 ^ finestScale (a.value / b.value) :=
    pow_le_pow_right₀ (by norm_num) (scale_div?_le h)
  rw [value_div?_eq_fitted h]
  exact (abs_fitted_sub_le_unit _).trans
    (div_le_div_of_nonneg_left (by norm_num) (by positivity) hpow)

/-! ### Hundredth parts -/

theorem div?_hundred (d : Decimal) : d.div? hundred = some d.hundredth :=
  (Option.some_get (div?_hundred_isSome d)).symm

theorem value_hundredth (d : Decimal) : d.hundredth.value = fitted (d.value / 100) := by
  rw [← value_hundred]
  exact value_div?_eq_fitted d.div?_hundred

theorem hundredth_nonneg {d : Decimal} (h : 0 ≤ d.value) : 0 ≤ d.hundredth.value := by
  rw [value_hundredth]
  exact fitted_nonneg (by positivity)

theorem hundredth_nonpos {d : Decimal} (h : d.value ≤ 0) : d.hundredth.value ≤ 0 := by
  rw [value_hundredth]
  exact fitted_nonpos (by linarith)

theorem abs_value_hundredth_sub_le (d : Decimal) :
    |d.hundredth.value - d.value / 100| ≤ 1 / 2 / 10 ^ d.hundredth.scale := by
  rw [← value_hundred]
  exact abs_value_div?_sub_le d.div?_hundred

end PointOfSale.Decimal

/-
  PointOfSale/Proofs/Decimal/Rounding.lean
  ========================================
  **Rounding, on the rationals.**  `NearestEven x n` says what it is to round a
  rational to an integer: no integer is nearer, and of two that are equally near it
  is the even one.  There is exactly one such integer, `halfEven x`, and the
  rounding of coefficients is this one at every scale.
-/
import Mathlib.Data.Nat.Cast.Field
import Mathlib.Data.Rat.Floor
import Mathlib.Tactic.FieldSimp
import PointOfSale.Decimal.Arithmetic
import PointOfSale.Proofs.Decimal.Value

namespace PointOfSale

/-! ### The nearest integer -/

/-- An integer that is nearest to a rational; of two, the even one. -/
def NearestEven (x : ℚ) (n : ℤ) : Prop :=
  |x - n| < 1 / 2 ∨ |x - n| = 1 / 2 ∧ n % 2 = 0

theorem NearestEven.abs_sub_le {x : ℚ} {n : ℤ} (h : NearestEven x n) : |x - n| ≤ 1 / 2 := by
  rcases h with h | ⟨h, -⟩ <;> linarith

theorem NearestEven.unique {x : ℚ} {n m : ℤ} (hn : NearestEven x n) (hm : NearestEven x m) :
    n = m := by
  -- two such integers differ by less than two, and by one only where both are even
  have hdistance : |(n : ℚ) - m| ≤ |x - m| + |x - n| := by
    have hsplit : (n : ℚ) - m = (x - m) - (x - n) := by ring
    rw [hsplit]
    exact abs_sub _ _
  have hint : |n - m| ≤ 1 := by
    have hcast : ((|n - m| : ℤ) : ℚ) ≤ 1 := by
      push_cast
      linarith [hn.abs_sub_le, hm.abs_sub_le]
    exact_mod_cast hcast
  rcases hn with hn | ⟨hn, hneven⟩
  · have hlt : ((|n - m| : ℤ) : ℚ) < 1 := by
      push_cast
      linarith [hm.abs_sub_le]
    have hzero : |n - m| < 1 := by exact_mod_cast hlt
    rw [Int.abs_lt_one_iff] at hzero
    omega
  · rcases hm with hm | ⟨hm, hmeven⟩
    · have hlt : ((|n - m| : ℤ) : ℚ) < 1 := by
        push_cast
        linarith
      have hzero : |n - m| < 1 := by exact_mod_cast hlt
      rw [Int.abs_lt_one_iff] at hzero
      omega
    · rw [abs_le] at hint
      omega

def halfEven (x : ℚ) : ℤ :=
  if x - ⌊x⌋ < 1 / 2 then ⌊x⌋
  else if 1 / 2 < x - ⌊x⌋ then ⌊x⌋ + 1
  else ⌊x⌋ + ⌊x⌋ % 2

theorem nearestEven_halfEven (x : ℚ) : NearestEven x (halfEven x) := by
  have hfloor : (0 : ℚ) ≤ x - ⌊x⌋ := sub_nonneg.2 (Int.floor_le x)
  have hnext : x - ⌊x⌋ < 1 := by linarith [Int.lt_floor_add_one x]
  unfold halfEven NearestEven
  split
  · rename_i h
    left
    rwa [abs_of_nonneg hfloor]
  · split
    · rename_i h
      left
      push_cast
      rw [abs_lt]
      constructor <;> linarith
    · rename_i hge hle
      have hhalf : x - ⌊x⌋ = 1 / 2 := le_antisymm (not_lt.1 hle) (not_lt.1 hge)
      right
      rcases Int.emod_two_eq_zero_or_one ⌊x⌋ with heven | hodd
      · rw [heven, add_zero]
        exact ⟨by rw [hhalf]; norm_num, heven⟩
      · rw [hodd]
        refine ⟨?_, by omega⟩
        have hbelow : x - ((⌊x⌋ + 1 : ℤ) : ℚ) = -(1 / 2) := by
          push_cast
          linarith
        rw [hbelow, abs_neg]
        norm_num

theorem halfEven_eq_of_nearestEven {x : ℚ} {n : ℤ} (h : NearestEven x n) : halfEven x = n :=
  (nearestEven_halfEven x).unique h

@[simp] theorem halfEven_intCast (n : ℤ) : halfEven (n : ℚ) = n := by
  apply halfEven_eq_of_nearestEven
  left
  simp

theorem halfEven_neg (x : ℚ) : halfEven (-x) = -halfEven x := by
  apply halfEven_eq_of_nearestEven
  have h := nearestEven_halfEven x
  have habs : |-x - ((-halfEven x : ℤ) : ℚ)| = |x - halfEven x| := by
    rw [← abs_neg]
    congr 1
    push_cast
    ring
  unfold NearestEven at h ⊢
  rw [habs, Int.neg_emod_two]
  exact h

theorem halfEven_mono {x y : ℚ} (h : x ≤ y) : halfEven x ≤ halfEven y := by
  by_contra hlt
  rw [not_le] at hlt
  have hx := abs_le.1 (nearestEven_halfEven x).abs_sub_le
  have hy := abs_le.1 (nearestEven_halfEven y).abs_sub_le
  have hnext : (halfEven y : ℚ) + 1 ≤ halfEven x := by exact_mod_cast hlt
  -- only a number half way between the two could be rounded to both
  have heq : x = y := le_antisymm h (by linarith [hx.1, hy.2])
  rw [heq] at hlt
  exact lt_irrefl _ hlt

@[simp] theorem halfEven_zero : halfEven 0 = 0 := by
  simpa using halfEven_intCast 0

theorem halfEven_nonneg {x : ℚ} (h : 0 ≤ x) : 0 ≤ halfEven x := by
  simpa using halfEven_mono h

theorem halfEven_nonpos {x : ℚ} (h : x ≤ 0) : halfEven x ≤ 0 := by
  simpa using halfEven_mono h

/-! ### Rounding of quotients -/

theorem nearestEven_roundHalfEven {num den : Nat} (h : 0 < den) :
    NearestEven ((num : ℚ) / den) (roundHalfEven num den) := by
  have hden : (0 : ℚ) < den := by exact_mod_cast h
  have hsum : (num : ℚ) = den * (num / den : Nat) + (num % den : Nat) := by
    exact_mod_cast (Nat.div_add_mod num den).symm
  have hrest : (num : ℚ) / den - (num / den : Nat) = (num % den : Nat) / den := by
    rw [eq_div_iff hden.ne', sub_mul, div_mul_cancel₀ _ hden.ne']
    linarith
  have hlt : ((num % den : Nat) : ℚ) < den := by exact_mod_cast Nat.mod_lt num h
  have hnonneg : (0 : ℚ) ≤ (num % den : Nat) / den := by positivity
  unfold roundHalfEven NearestEven
  simp only
  generalize num / den = q at hsum hrest ⊢
  generalize num % den = r at hsum hrest hlt hnonneg ⊢
  split
  · rename_i hless
    left
    rw [Int.cast_natCast, hrest, abs_of_nonneg hnonneg, div_lt_div_iff₀ hden two_pos]
    have hcast : (2 : ℚ) * r < den := by exact_mod_cast hless
    linarith
  · split
    · rename_i hmore
      left
      have hcast : (den : ℚ) < 2 * r := by exact_mod_cast hmore
      have hone : (r : ℚ) / den < 1 := (div_lt_one hden).2 hlt
      have hhalf : (1 : ℚ) / 2 < r / den := by
        rw [div_lt_div_iff₀ two_pos hden]
        linarith
      push_cast at hrest ⊢
      rw [abs_lt]
      constructor <;> linarith
    · rename_i hge hle
      right
      have htie : 2 * r = den := by omega
      have hcast : (2 : ℚ) * r = den := by exact_mod_cast htie
      have hhalf : (r : ℚ) / den = 1 / 2 := by
        rw [div_eq_div_iff hden.ne' two_ne_zero]
        linarith
      rcases Nat.mod_two_eq_zero_or_one q with heven | hodd
      · rw [heven, add_zero, Int.cast_natCast, hrest, hhalf]
        exact ⟨by norm_num, by omega⟩
      · rw [hodd]
        refine ⟨?_, by omega⟩
        have hbelow : (num : ℚ) / den - (((q + 1 : Nat) : ℤ) : ℚ) = -(1 / 2) := by
          push_cast at hrest ⊢
          linarith
        rw [hbelow, abs_neg]
        norm_num

theorem halfEven_div {num den : Nat} (h : 0 < den) :
    halfEven ((num : ℚ) / den) = roundHalfEven num den :=
  halfEven_eq_of_nearestEven (nearestEven_roundHalfEven h)

theorem roundHalfEven_of_dvd {num den : Nat} (hden : 0 < den) (h : den ∣ num) :
    roundHalfEven num den = num / den := by
  have hrest : num % den = 0 := Nat.mod_eq_zero_of_dvd h
  simp [roundHalfEven, hrest, hden]

namespace Decimal

theorem halfEven_signed {negative : Bool} {num den : Nat} (h : 0 < den) :
    halfEven (signed negative num / den) = signed negative (roundHalfEven num den) := by
  cases negative with
  | false => simpa [signed] using halfEven_div h
  | true =>
    have hneg : ((signed true num : ℤ) : ℚ) / den = -((num : ℚ) / den) := by
      simp [signed, neg_div]
    rw [hneg, halfEven_neg, halfEven_div h]
    rfl

/-- Rounding to places is rounding the number itself to the nearest multiple of the
    last place. -/
theorem value_roundTo (places : Nat) (d : Decimal) :
    (d.roundTo places).value = halfEven (d.value * 10 ^ places) / 10 ^ places := by
  have hplaces : (10 : ℚ) ^ places ≠ 0 := by positivity
  unfold roundTo
  split
  · rename_i h
    obtain ⟨k, hk⟩ := Nat.exists_eq_add_of_le h
    have hinteger : d.value * 10 ^ places = ((d.coeff * 10 ^ k : ℤ) : ℚ) := by
      have hscale : (10 : ℚ) ^ d.scale ≠ 0 := by positivity
      rw [value_eq, hk, pow_add]
      push_cast
      field_simp
    rw [hinteger, halfEven_intCast, ← hinteger, mul_div_cancel_right₀ _ hplaces]
  · rename_i h
    have hpower : (10 : ℚ) ^ d.scale = 10 ^ places * 10 ^ (d.scale - places) := by
      rw [← pow_add]
      congr 1
      omega
    have hfraction : d.value * 10 ^ places =
        signed d.negative d.magnitude / (10 ^ (d.scale - places) : Nat) := by
      rw [value_eq, hpower, coeff]
      push_cast
      field_simp
    rw [hfraction, halfEven_signed (Nat.pow_pos (by decide))]
    simp only [value_mk]
    congr 2
    -- only a number that vanishes gives up its sign
    by_cases hzero : roundHalfEven d.magnitude (10 ^ (d.scale - places)) = 0
    · simp [signed, hzero]
    · simp [hzero]

/-- Where the exact quotient has a coefficient that fits, at a scale that is tried, it
    is the result. -/
theorem nearest?_of_dvd (negative : Bool) {num den scale fitting : Nat} (hden : 0 < den)
    (hle : fitting ≤ scale) (hscale : fitting ≤ maxScale) (hdvd : den ∣ num * 10 ^ fitting)
    (hfits : num * 10 ^ fitting / den < bound) :
    ∃ d, nearest? negative num den scale = some d ∧ d.value = signed negative num / den := by
  have hden0 : (den : ℚ) ≠ 0 := by positivity
  have hexact : ∀ s, fitting ≤ s → roundHalfEven (num * 10 ^ s) den = num * 10 ^ s / den ∧
      ((signed negative (num * 10 ^ s / den) : ℤ) : ℚ) / 10 ^ s = signed negative num / den := by
    intro s hs
    have hs_dvd : den ∣ num * 10 ^ s :=
      hdvd.trans (Nat.mul_dvd_mul_left _ (Nat.pow_dvd_pow 10 hs))
    refine ⟨roundHalfEven_of_dvd hden hs_dvd, ?_⟩
    have hpow : (10 : ℚ) ^ s ≠ 0 := by positivity
    rw [signed_cast, signed_cast, Nat.cast_div hs_dvd hden0]
    push_cast
    field_simp
  induction scale with
  | zero =>
    obtain rfl : fitting = 0 := by omega
    obtain ⟨hround, hvalue⟩ := hexact 0 le_rfl
    simp only [pow_zero, mul_one, div_one] at hfits hround hvalue
    obtain ⟨d, hd, hd_value⟩ := exists_ofParts? negative hfits hscale
    refine ⟨d, by simp only [nearest?, hround, hd], ?_⟩
    simpa [hvalue] using hd_value
  | succ s ih =>
    obtain ⟨hround, hvalue⟩ := hexact (s + 1) hle
    simp only [nearest?, hround]
    cases hparts : ofParts? negative (num * 10 ^ (s + 1) / den) (s + 1) with
    | some d => exact ⟨d, rfl, by rw [value_ofParts? hparts, hvalue]⟩
    | none =>
      refine ih ?_
      rcases Nat.lt_or_ge fitting (s + 1) with hlt | hge
      · omega
      · obtain rfl : fitting = s + 1 := by omega
        obtain ⟨d, hd, -⟩ := exists_ofParts? negative hfits hscale
        rw [hd] at hparts
        cases hparts

end Decimal

end PointOfSale

/-
  PointOfSale/Proofs/Decimal/Nearness.lean
  ========================================
  **How far a checked sum is from the exact one.**  A number that some decimal holds
  is met (`add?_of_heldAt`).  Any other is missed by at most half of the last place
  for which there is room (`add?_near`).
-/
import PointOfSale.Decimal.Arithmetic
import PointOfSale.Proofs.Decimal.Rounding

namespace PointOfSale

/-- A decimal with this many fractional digits holds the number. -/
structure HeldAt (places : Nat) (x : ℚ) : Prop where
  integer : (x * 10 ^ places).den = 1
  below : |x| * 10 ^ places < Decimal.bound

theorem HeldAt.exists_int {places : Nat} {x : ℚ} (h : HeldAt places x) :
    ∃ n : ℤ, x * 10 ^ places = n :=
  ⟨(x * 10 ^ places).num, ((Rat.den_eq_one_iff _).1 h.integer).symm⟩

namespace Decimal

theorem signed_natAbs (i : Int) : signed (i < 0) i.natAbs = i := by
  by_cases h : i < 0
  · simp only [signed, h, decide_true, if_true]
    omega
  · simp only [signed, h, decide_false, Bool.false_eq_true, if_false]
    omega

/-- The common coefficient of two decimals at the finer of their scales. -/
theorem value_add_eq (a b : Decimal) :
    a.value + b.value =
      ((a.coeff * 10 ^ (max a.scale b.scale - a.scale) +
        b.coeff * 10 ^ (max a.scale b.scale - b.scale) : ℤ) : ℚ) / 10 ^ max a.scale b.scale := by
  have hscale : ∀ s, s ≤ max a.scale b.scale →
      (10 : ℚ) ^ max a.scale b.scale = 10 ^ s * 10 ^ (max a.scale b.scale - s) := by
    intro s hs
    rw [← pow_add]
    congr 1
    omega
  have hvalue : ∀ d : Decimal, d.scale ≤ max a.scale b.scale →
      d.value = d.coeff * 10 ^ (max a.scale b.scale - d.scale) / 10 ^ max a.scale b.scale := by
    intro d hd
    rw [value_eq, hscale d.scale hd]
    field_simp
  rw [hvalue a (le_max_left _ _), hvalue b (le_max_right _ _)]
  push_cast
  rw [← add_div]

/-! ### Numbers that a decimal holds -/

/-- A quotient that a decimal holds is found by the search for the finest decimal that
    fits. -/
theorem nearest?_of_heldAt {i : ℤ} {scale places : Nat} (hscale : scale ≤ maxScale)
    (hplaces : places ≤ maxScale) (h : HeldAt places ((i : ℚ) / 10 ^ scale)) :
    ∃ d, nearest? (i < 0) i.natAbs (10 ^ scale) scale = some d ∧ d.value = i / 10 ^ scale := by
  have hpow : (0 : ℚ) < 10 ^ scale := by positivity
  have hden : 0 < 10 ^ scale := Nat.pow_pos (by decide)
  have hsize : |(i : ℚ)| = i.natAbs := by rw [Nat.cast_natAbs, Int.cast_abs]
  have hbelow : (i.natAbs : ℚ) * 10 ^ places < bound * 10 ^ scale := by
    have := h.below
    rwa [abs_div, abs_of_pos hpow, hsize, div_mul_eq_mul_div, div_lt_iff₀ hpow] at this
  have hmain : ∃ fitting ≤ scale, fitting ≤ maxScale ∧ 10 ^ scale ∣ i.natAbs * 10 ^ fitting ∧
      i.natAbs * 10 ^ fitting / 10 ^ scale < bound := by
    rcases le_total places scale with hle | hle
    · obtain ⟨n, hn⟩ := h.exists_int
      have hcoeff : i * 10 ^ places = n * 10 ^ scale := by
        have hrat : (i : ℚ) * 10 ^ places = n * 10 ^ scale := by
          rw [← hn]
          field_simp
        exact_mod_cast hrat
      have hnat : i.natAbs * 10 ^ places = n.natAbs * 10 ^ scale := by
        have habs := congrArg Int.natAbs hcoeff
        simpa [Int.natAbs_mul, Int.natAbs_pow] using habs
      refine ⟨places, hle, hplaces, ⟨n.natAbs, by rw [hnat, Nat.mul_comm]⟩, ?_⟩
      apply Nat.div_lt_of_lt_mul
      rw [Nat.mul_comm (10 ^ scale)]
      exact_mod_cast hbelow
    · refine ⟨scale, le_rfl, hscale, Nat.dvd_mul_left _ _, ?_⟩
      rw [Nat.mul_div_cancel _ hden]
      have hplace : (10 : ℚ) ^ scale ≤ 10 ^ places := pow_le_pow_right₀ (by norm_num) hle
      have hsmall : (i.natAbs : ℚ) < bound := by
        have hmul : (i.natAbs : ℚ) * 10 ^ scale ≤ i.natAbs * 10 ^ places :=
          mul_le_mul_of_nonneg_left hplace (Nat.cast_nonneg _)
        exact lt_of_mul_lt_mul_right (lt_of_le_of_lt hmul hbelow) hpow.le
      exact_mod_cast hsmall
  obtain ⟨fitting, hle, hmax, hdvd, hfits⟩ := hmain
  obtain ⟨d, hd, hvalue⟩ := nearest?_of_dvd (i < 0) hden hle hmax hdvd hfits
  refine ⟨d, hd, ?_⟩
  rw [hvalue, signed_natAbs]
  push_cast
  rfl

/-- **A sum that a decimal holds is exact.** -/
theorem add?_of_heldAt {a b : Decimal} {places : Nat} (hplaces : places ≤ maxScale)
    (h : HeldAt places (a.value + b.value)) :
    ∃ d, a.add? b = some d ∧ d.value = a.value + b.value := by
  unfold add?
  split
  · rename_i hzero
    exact ⟨b, rfl, by rw [isZero_iff.1 hzero, zero_add]⟩
  · split
    · rename_i hzero
      exact ⟨a, rfl, by rw [isZero_iff.1 hzero, add_zero]⟩
    · rw [value_add_eq] at h ⊢
      exact nearest?_of_heldAt (max_le a.scale_le b.scale_le) hplaces h

theorem value_subtrahend (b : Decimal) : (if b.isZero then b else -b).value = -b.value := by
  split
  · rename_i h
    rw [isZero_iff.1 h, neg_zero]
  · exact value_neg b

theorem sub?_of_heldAt {a b : Decimal} {places : Nat} (hplaces : places ≤ maxScale)
    (h : HeldAt places (a.value - b.value)) :
    ∃ d, a.sub? b = some d ∧ d.value = a.value - b.value := by
  rw [sub_eq_add_neg, ← value_subtrahend] at h ⊢
  exact add?_of_heldAt hplaces h

/-! ### All other numbers -/

theorem abs_sub_roundHalfEven_le (num : Nat) {den : Nat} (hden : 0 < den) :
    |(num : ℚ) / den - roundHalfEven num den| ≤ 1 / 2 :=
  (nearestEven_roundHalfEven hden).abs_sub_le

/-- Rounding at a place misses a quotient by half of that place at most. -/
theorem roundHalfEven_near (negative : Bool) (num : Nat) {den : Nat} (hden : 0 < den) (s : Nat) :
    |((signed negative (roundHalfEven (num * 10 ^ s) den) : ℤ) : ℚ) / 10 ^ s -
      signed negative num / den| ≤ 1 / (2 * 10 ^ s) := by
  have hpow : (0 : ℚ) < 10 ^ s := by positivity
  have hsign : |(if negative then -1 else 1 : ℚ)| = 1 := by cases negative <;> simp
  have hrounded := abs_sub_roundHalfEven_le (num * 10 ^ s) hden
  have hscaled : (roundHalfEven (num * 10 ^ s) den : ℚ) / 10 ^ s - num / den =
      -((((num * 10 ^ s : ℕ) : ℚ) / den - roundHalfEven (num * 10 ^ s) den) / 10 ^ s) := by
    push_cast
    field_simp
    ring
  rw [signed_cast, signed_cast, mul_div_assoc, mul_div_assoc, ← mul_sub, abs_mul, hsign, one_mul,
    hscaled, abs_neg, abs_div, abs_of_pos hpow, div_le_iff₀ hpow]
  refine hrounded.trans (le_of_eq ?_)
  field_simp

theorem roundHalfEven_lt_bound {num den places : Nat} (hden : 0 < den)
    (hroom : (num : ℚ) / den * 10 ^ places + 1 / 2 < bound) :
    roundHalfEven (num * 10 ^ places) den < bound := by
  have hrounded := abs_sub_roundHalfEven_le (num * 10 ^ places) hden
  rw [abs_le] at hrounded
  have hcast : (((num * 10 ^ places : ℕ) : ℚ)) / den = num / den * 10 ^ places := by
    push_cast
    ring
  have hlt : (roundHalfEven (num * 10 ^ places) den : ℚ) < bound := by
    rw [hcast] at hrounded
    linarith [hrounded.1]
  exact_mod_cast hlt

/-- A place that has room is tried before any coarser one. -/
theorem nearest?_near (negative : Bool) {num den scale places : Nat} (hden : 0 < den)
    (hle : places ≤ scale) (hplaces : places ≤ maxScale)
    (hroom : (num : ℚ) / den * 10 ^ places + 1 / 2 < bound) :
    ∃ d, nearest? negative num den scale = some d ∧
      |d.value - signed negative num / den| ≤ 1 / (2 * 10 ^ places) := by
  have hfits := roundHalfEven_lt_bound hden hroom
  induction scale with
  | zero =>
    obtain rfl : places = 0 := by omega
    rw [pow_zero, mul_one] at hfits
    obtain ⟨d, hd, hvalue⟩ := exists_ofParts? negative hfits hplaces
    refine ⟨d, hd, ?_⟩
    rw [hvalue]
    simpa using roundHalfEven_near negative num hden 0
  | succ s ih =>
    simp only [nearest?]
    cases hparts : ofParts? negative (roundHalfEven (num * 10 ^ (s + 1)) den) (s + 1) with
    | some d =>
      refine ⟨d, rfl, ?_⟩
      rw [value_ofParts? hparts]
      refine (roundHalfEven_near negative num hden (s + 1)).trans ?_
      have hpow : (10 : ℚ) ^ places ≤ 10 ^ (s + 1) := pow_le_pow_right₀ (by norm_num) hle
      exact one_div_le_one_div_of_le (by positivity) (by linarith)
    | none =>
      rcases Nat.lt_or_ge places (s + 1) with hlt | hge
      · exact ih (by omega)
      · obtain rfl : places = s + 1 := by omega
        obtain ⟨d, hd, -⟩ := exists_ofParts? negative hfits hplaces
        rw [hd] at hparts
        cases hparts

/-- A scaled integer has a decimal within half of a place for which there is room. -/
theorem nearest?_scaled {i : ℤ} {scale places : Nat} (hscale : scale ≤ maxScale)
    (hplaces : places ≤ maxScale)
    (hroom : |(i : ℚ) / 10 ^ scale| * 10 ^ places + 1 / 2 < bound) :
    ∃ d, nearest? (i < 0) i.natAbs (10 ^ scale) scale = some d ∧
      |d.value - i / 10 ^ scale| ≤ 1 / (2 * 10 ^ places) := by
  rcases le_total places scale with hle | hle
  · have hsize : |(i : ℚ) / 10 ^ scale| = (i.natAbs : ℚ) / (10 ^ scale : ℕ) := by
      rw [abs_div, Nat.cast_natAbs, Int.cast_abs]
      simp
    rw [hsize] at hroom
    obtain ⟨d, hd, hnear⟩ :=
      nearest?_near (i < 0) (Nat.pow_pos (by decide)) hle hplaces hroom
    rw [signed_natAbs] at hnear
    push_cast at hnear
    exact ⟨d, hd, hnear⟩
  · -- all places of the integer have room
    have hinteger : (i : ℚ) / 10 ^ scale * 10 ^ places = ((i * 10 ^ (places - scale) : ℤ) : ℚ) := by
      obtain ⟨k, rfl⟩ := Nat.exists_eq_add_of_le hle
      rw [Nat.add_sub_cancel_left, pow_add]
      push_cast
      field_simp
    have hheld : HeldAt places ((i : ℚ) / 10 ^ scale) := by
      refine ⟨?_, by linarith⟩
      rw [hinteger, Rat.den_intCast]
    obtain ⟨d, hd, hvalue⟩ := nearest?_of_heldAt hscale hplaces hheld
    refine ⟨d, hd, ?_⟩
    rw [hvalue, sub_self, abs_zero]
    positivity

/-- **A sum with room for a place** misses the exact one by half of that place at most. -/
theorem add?_near {a b : Decimal} (places : Nat) (hplaces : places ≤ maxScale)
    (hroom : |a.value + b.value| * 10 ^ places + 1 / 2 < bound) :
    ∃ d, a.add? b = some d ∧ |d.value - (a.value + b.value)| ≤ 1 / (2 * 10 ^ places) := by
  have hexact : ∀ d : Decimal, d.value = a.value + b.value →
      |d.value - (a.value + b.value)| ≤ 1 / (2 * 10 ^ places) := by
    intro d hd
    rw [hd, sub_self, abs_zero]
    positivity
  unfold add?
  split
  · rename_i hzero
    exact ⟨b, rfl, hexact b (by rw [isZero_iff.1 hzero, zero_add])⟩
  · split
    · rename_i hzero
      exact ⟨a, rfl, hexact a (by rw [isZero_iff.1 hzero, add_zero])⟩
    · rw [value_add_eq] at hroom ⊢
      exact nearest?_scaled (max_le a.scale_le b.scale_le) hplaces hroom

theorem sub?_near {a b : Decimal} (places : Nat) (hplaces : places ≤ maxScale)
    (hroom : |a.value - b.value| * 10 ^ places + 1 / 2 < bound) :
    ∃ d, a.sub? b = some d ∧ |d.value - (a.value - b.value)| ≤ 1 / (2 * 10 ^ places) := by
  rw [sub_eq_add_neg, ← value_subtrahend] at hroom ⊢
  exact add?_near places hplaces hroom

end Decimal

end PointOfSale

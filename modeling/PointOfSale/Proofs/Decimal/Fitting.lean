/-
  PointOfSale/Proofs/Decimal/Fitting.lean
  =======================================
  **What checked arithmetic gives is a function of the exact number.**  A sum, a
  difference or a product is there exactly when the exact number is below the size
  limit, and then it is that number fitted: rounded at the finest place at which its
  coefficient has room.  The scales of the operands have no say in it.

  Fitting keeps the order of numbers, although greater numbers are fitted at coarser
  places (`fitted_mono`), and it keeps the number of every decimal (`fitted_value`).
  Every bound on a computed figure is an instance of these two.
-/
import Mathlib.Data.Nat.Find
import PointOfSale.Proofs.Decimal.Nearness

namespace PointOfSale

namespace Decimal

/-- From this size on even the integer part of a number has no decimal.  Half way to
    the bound is already beyond it, because the bound is even. -/
def sizeLimit : ℚ := bound - 1 / 2

theorem sizeLimit_pos : 0 < sizeLimit := by norm_num [sizeLimit, bound]

theorem halfEven_lt_bound_iff {x : ℚ} : halfEven x < bound ↔ x < sizeLimit := by
  have hnear := abs_le.1 (nearestEven_halfEven x).abs_sub_le
  unfold sizeLimit
  constructor
  · intro h
    have hle : (halfEven x : ℚ) ≤ bound - 1 := by
      have hint : halfEven x ≤ bound - 1 := by omega
      exact_mod_cast hint
    refine lt_of_le_of_ne (by linarith [hnear.2]) ?_
    rintro rfl
    have htie : halfEven ((bound : ℚ) - 1 / 2) = bound := by
      apply halfEven_eq_of_nearestEven
      right
      constructor
      · push_cast
        norm_num
      · decide
    omega
  · intro h
    have hlt : (halfEven x : ℚ) < bound := by linarith [hnear.1]
    exact_mod_cast hlt

theorem roundHalfEven_lt_bound_iff (negative : Bool) {num den : Nat} (hden : 0 < den) (s : Nat) :
    roundHalfEven (num * 10 ^ s) den < bound ↔
      |((signed negative num : ℤ) : ℚ) / den| * 10 ^ s < sizeLimit := by
  have hsize : |((signed negative num : ℤ) : ℚ) / den| * 10 ^ s =
      ((num * 10 ^ s : ℕ) : ℚ) / den := by
    rw [signed_cast, abs_div, abs_mul, Nat.abs_cast, Nat.abs_cast]
    cases negative <;> simp [mul_div_right_comm]
  rw [hsize, ← halfEven_lt_bound_iff, halfEven_div hden]
  exact Nat.cast_lt.symm

/-! ### Fitting a number -/

/-- The finest place at which the coefficient of a number has room. -/
def finestScale (x : ℚ) : Nat := Nat.findGreatest (fun s => |x| * 10 ^ s < sizeLimit) maxScale

/-- A number rounded at its finest place. -/
def fitted (x : ℚ) : ℚ := halfEven (x * 10 ^ finestScale x) / 10 ^ finestScale x

theorem finestScale_le (x : ℚ) : finestScale x ≤ maxScale := Nat.findGreatest_le _

theorem finestScale_neg (x : ℚ) : finestScale (-x) = finestScale x := by
  simp [finestScale]

/-- A number with room at some place has it at every coarser one. -/
theorem fits_of_le {x : ℚ} {s t : Nat} (hle : s ≤ t) (h : |x| * 10 ^ t < sizeLimit) :
    |x| * 10 ^ s < sizeLimit := by
  have hpow : (10 : ℚ) ^ s ≤ 10 ^ t := pow_le_pow_right₀ (by norm_num) hle
  exact lt_of_le_of_lt (mul_le_mul_of_nonneg_left hpow (abs_nonneg x)) h

theorem fits_finestScale {x : ℚ} (h : |x| < sizeLimit) :
    |x| * 10 ^ finestScale x < sizeLimit := by
  have hzero : |x| * 10 ^ 0 < sizeLimit := by simpa using h
  exact Nat.findGreatest_spec (P := fun s => |x| * 10 ^ s < sizeLimit) (Nat.zero_le _) hzero

theorem le_finestScale {x : ℚ} {s : Nat} (hs : s ≤ maxScale) (h : |x| * 10 ^ s < sizeLimit) :
    s ≤ finestScale x :=
  Nat.le_findGreatest hs h

theorem sizeLimit_le_of_finestScale_lt {x : ℚ} {s : Nat} (hs : s ≤ maxScale)
    (h : finestScale x < s) : sizeLimit ≤ |x| * 10 ^ s :=
  not_lt.1 (Nat.findGreatest_is_greatest h hs)

@[simp] theorem fitted_zero : fitted 0 = 0 := by simp [fitted]

theorem fitted_neg (x : ℚ) : fitted (-x) = -fitted x := by
  unfold fitted
  rw [finestScale_neg, neg_mul, halfEven_neg]
  push_cast
  ring

/-- Rounding at a place loses nothing of a number that ends there. -/
theorem halfEven_div_of_int {x : ℚ} {s t : Nat} {n : ℤ} (hn : x * 10 ^ s = n) (hle : s ≤ t) :
    (halfEven (x * 10 ^ t) : ℚ) / 10 ^ t = x := by
  have hpow : (10 : ℚ) ^ t ≠ 0 := by positivity
  have hint : x * 10 ^ t = ((n * 10 ^ (t - s) : ℤ) : ℚ) := by
    obtain ⟨k, rfl⟩ := Nat.exists_eq_add_of_le hle
    rw [pow_add, ← mul_assoc, hn, Nat.add_sub_cancel_left]
    push_cast
    ring
  rw [hint, halfEven_intCast, ← hint, mul_div_cancel_right₀ _ hpow]

/-- A number that some decimal holds is fitted as it is. -/
theorem fitted_of_heldAt {x : ℚ} {places : Nat} (hplaces : places ≤ maxScale)
    (h : HeldAt places x) : fitted x = x := by
  obtain ⟨n, hn⟩ := h.exists_int
  have hsize : |x| * 10 ^ places = ((|n| : ℤ) : ℚ) := by
    have hpow : |(10 : ℚ) ^ places| = 10 ^ places := abs_of_pos (by positivity)
    rw [Int.cast_abs, ← hn, abs_mul, hpow]
  have hfits : |x| * 10 ^ places < sizeLimit := by
    have hbelow := h.below
    rw [hsize] at hbelow ⊢
    have hint : |n| + 1 ≤ bound := by exact_mod_cast hbelow
    have hcast : ((|n| : ℤ) : ℚ) + 1 ≤ bound := by exact_mod_cast hint
    unfold sizeLimit
    linarith
  exact halfEven_div_of_int hn (le_finestScale hplaces hfits)

theorem abs_value (d : Decimal) : |d.value| = d.magnitude / 10 ^ d.scale := by
  rw [value_eq, abs_div, ← Int.cast_abs, Int.abs_eq_natAbs, coeff, natAbs_signed,
    Int.cast_natCast, abs_of_pos (by positivity)]

theorem heldAt_value (d : Decimal) : HeldAt d.scale d.value := by
  have hpow : (0 : ℚ) < 10 ^ d.scale := by positivity
  have hcoeff : d.value * 10 ^ d.scale = (d.coeff : ℚ) := by
    rw [value_eq, div_mul_cancel₀ _ hpow.ne']
  constructor
  · rw [hcoeff, Rat.den_intCast]
  · have hsize : |d.value| * 10 ^ d.scale = (d.magnitude : ℚ) := by
      rw [abs_value, div_mul_cancel₀ _ hpow.ne']
    rw [hsize]
    exact_mod_cast d.magnitude_lt

/-- **Fitting keeps the number of every decimal.** -/
@[simp] theorem fitted_value (d : Decimal) : fitted d.value = d.value :=
  fitted_of_heldAt d.scale_le d.heldAt_value

theorem fitted_natCast {n : Nat} (h : n < bound) : fitted n = n := by
  rw [← value_ofNat h, fitted_value]

theorem abs_value_le (d : Decimal) : |d.value| ≤ bound - 1 := by
  have hpow : (1 : ℚ) ≤ 10 ^ d.scale := one_le_pow₀ (by norm_num)
  have hsize : (d.magnitude : ℚ) + 1 ≤ bound := by exact_mod_cast d.magnitude_lt
  rw [abs_value]
  linarith [div_le_self (Nat.cast_nonneg d.magnitude : (0 : ℚ) ≤ d.magnitude) hpow]

theorem abs_value_lt (d : Decimal) : |d.value| < sizeLimit := by
  have h := d.abs_value_le
  unfold sizeLimit
  linarith

/-! ### Fitting keeps the order -/

theorem finestScale_anti {x y : ℚ} (h : |x| ≤ |y|) : finestScale y ≤ finestScale x := by
  rcases lt_or_ge |y| sizeLimit with hlt | hge
  · refine le_finestScale (finestScale_le y) ?_
    have hpow : (0 : ℚ) ≤ 10 ^ finestScale y := by positivity
    exact lt_of_le_of_lt (mul_le_mul_of_nonneg_right h hpow) (fits_finestScale hlt)
  · have hzero : finestScale y = 0 := by
      by_contra hne
      have hspec := Nat.findGreatest_of_ne_zero (m := finestScale y) rfl hne
      have hone : |y| * 10 ^ 0 < sizeLimit := fits_of_le (Nat.zero_le _) hspec
      rw [pow_zero, mul_one] at hone
      exact absurd hone (not_lt.2 hge)
    rw [hzero]
    exact Nat.zero_le _

theorem fitted_nonneg {x : ℚ} (h : 0 ≤ x) : 0 ≤ fitted x := by
  have hscaled : 0 ≤ x * 10 ^ finestScale x := by positivity
  have hround : (0 : ℚ) ≤ halfEven (x * 10 ^ finestScale x) := by
    exact_mod_cast halfEven_nonneg hscaled
  unfold fitted
  positivity

/-- A greater number at a coarser place: what it is rounded to there is a multiple of ten
    of the next place, and no coefficient exceeds the last such multiple. -/
theorem fitted_le_of_finestScale_lt {x y : ℚ} (hx : 0 ≤ x) (h : x ≤ y)
    (hlt : finestScale y < finestScale x) : fitted x ≤ fitted y := by
  have hy : 0 ≤ y := hx.trans h
  have hfine : |x| * 10 ^ finestScale x < sizeLimit := by
    have hne : finestScale x ≠ 0 := by omega
    exact Nat.findGreatest_of_ne_zero (m := finestScale x) rfl hne
  have hcoarse : sizeLimit ≤ |y| * 10 ^ (finestScale y + 1) :=
    sizeLimit_le_of_finestScale_lt (le_trans hlt (finestScale_le x)) (Nat.lt_succ_self _)
  rw [abs_of_nonneg hx] at hfine
  rw [abs_of_nonneg hy, pow_succ, ← mul_assoc] at hcoarse
  unfold fitted
  set a := halfEven (x * 10 ^ finestScale x)
  set b := halfEven (y * 10 ^ finestScale y) with hb
  have ha : a ≤ bound - 1 := by
    have hbelow : a < bound := halfEven_lt_bound_iff.2 hfine
    omega
  have htens : (bound : ℤ) - 1 ≤ b * 10 := by
    have hnear := abs_le.1 (nearestEven_halfEven (y * 10 ^ finestScale y)).abs_sub_le
    have hreal : (bound : ℚ) - 6 < b * 10 := by
      rw [hb]
      unfold sizeLimit at hcoarse
      linarith [hnear.2]
    have hint : (bound : ℤ) - 6 < b * 10 := by exact_mod_cast hreal
    have hbound : (bound : ℤ) = 79228162514264337593543950336 := by decide
    omega
  have hpow : (0 : ℚ) < 10 ^ finestScale x := by positivity
  have hnext : (10 : ℚ) ^ (finestScale y + 1) ≤ 10 ^ finestScale x :=
    pow_le_pow_right₀ (by norm_num) hlt
  have hab : (a : ℚ) ≤ b * 10 := by exact_mod_cast ha.trans htens
  have hb0 : (0 : ℚ) ≤ b * 10 := by
    have hten : (0 : ℤ) ≤ b * 10 := by
      have hbound : (1 : ℤ) ≤ bound := by decide
      omega
    exact_mod_cast hten
  calc (a : ℚ) / 10 ^ finestScale x
      ≤ b * 10 / 10 ^ finestScale x := div_le_div_of_nonneg_right hab hpow.le
    _ ≤ b * 10 / 10 ^ (finestScale y + 1) :=
        div_le_div_of_nonneg_left hb0 (by positivity) hnext
    _ = b / 10 ^ finestScale y := by
        rw [pow_succ]
        field_simp

theorem fitted_mono_of_nonneg {x y : ℚ} (hx : 0 ≤ x) (h : x ≤ y) : fitted x ≤ fitted y := by
  have habs : |x| ≤ |y| := by rwa [abs_of_nonneg hx, abs_of_nonneg (hx.trans h)]
  rcases (finestScale_anti habs).lt_or_eq with hlt | heq
  · exact fitted_le_of_finestScale_lt hx h hlt
  · have hpow : (0 : ℚ) < 10 ^ finestScale x := by positivity
    have hround : (halfEven (x * 10 ^ finestScale x) : ℚ) ≤ halfEven (y * 10 ^ finestScale x) := by
      exact_mod_cast halfEven_mono (mul_le_mul_of_nonneg_right h hpow.le)
    unfold fitted
    rw [heq]
    exact div_le_div_of_nonneg_right hround hpow.le

/-- **Fitting keeps the order of numbers.** -/
theorem fitted_mono {x y : ℚ} (h : x ≤ y) : fitted x ≤ fitted y := by
  rcases le_total 0 x with hx | hx
  · exact fitted_mono_of_nonneg hx h
  · rcases le_total 0 y with hy | hy
    · have hneg : 0 ≤ fitted (-x) := fitted_nonneg (by linarith)
      rw [fitted_neg] at hneg
      linarith [fitted_nonneg hy]
    · have hneg : fitted (-y) ≤ fitted (-x) := fitted_mono_of_nonneg (by linarith) (by linarith)
      rw [fitted_neg, fitted_neg] at hneg
      linarith

theorem fitted_nonpos {x : ℚ} (h : x ≤ 0) : fitted x ≤ 0 := by
  simpa using fitted_mono h

/-- A number up to that of a decimal is fitted to one up to that of the decimal. -/
theorem fitted_le_value {x : ℚ} {d : Decimal} (h : x ≤ d.value) : fitted x ≤ d.value := by
  simpa using fitted_mono h

theorem value_le_fitted {x : ℚ} {d : Decimal} (h : d.value ≤ x) : d.value ≤ fitted x := by
  simpa using fitted_mono h

theorem abs_fitted_sub_le_unit (x : ℚ) : |fitted x - x| ≤ 1 / 2 / 10 ^ finestScale x := by
  have hpow : (0 : ℚ) < 10 ^ finestScale x := by positivity
  have hnear := (nearestEven_halfEven (x * 10 ^ finestScale x)).abs_sub_le
  have hscaled : fitted x - x =
      -(x * 10 ^ finestScale x - halfEven (x * 10 ^ finestScale x)) / 10 ^ finestScale x := by
    unfold fitted
    field_simp
    ring
  rw [hscaled, abs_div, abs_neg, abs_of_pos hpow]
  exact div_le_div_of_nonneg_right hnear hpow.le

theorem abs_fitted_sub_le (x : ℚ) : |fitted x - x| ≤ 1 / 2 := by
  have hpow : (1 : ℚ) ≤ 10 ^ finestScale x := one_le_pow₀ (by norm_num)
  exact (abs_fitted_sub_le_unit x).trans (div_le_self (by norm_num) hpow)

/-! ### The search for the finest decimal -/

theorem ofParts?_eq_some_iff {negative : Bool} {m s : Nat} {d : Decimal} :
    ofParts? negative m s = some d ↔
      ∃ hm : m < bound, ∃ hs : s ≤ maxScale, d = ⟨negative, m, s, hm, hs⟩ := by
  unfold ofParts?
  split
  · rename_i h
    simp [h.1, h.2, eq_comm]
  · rename_i h
    constructor
    · intro heq
      cases heq
    · rintro ⟨hm, hs, -⟩
      exact absurd ⟨hm, hs⟩ h

theorem ofParts?_eq_none_iff {negative : Bool} {m s : Nat} :
    ofParts? negative m s = none ↔ s ≤ maxScale → bound ≤ m := by
  rw [ofParts?, dite_eq_right_iff]
  simp only [reduceCtorEq, imp_false, not_and]
  constructor
  · intro h hs
    by_contra hm
    exact h (not_le.1 hm) hs
  · intro h hm hs
    exact absurd hm (not_lt.2 (h hs))

section Search

variable {negative : Bool} {num den scale : Nat} {d : Decimal}

/-- The search stops at the finest place, among those that it tries, at which there is
    room. -/
theorem nearest?_eq_some (hden : 0 < den) (h : nearest? negative num den scale = some d) :
    ∃ s ≤ scale, s ≤ maxScale ∧ |((signed negative num : ℤ) : ℚ) / den| * 10 ^ s < sizeLimit ∧
      (∀ t, s < t → t ≤ scale → t ≤ maxScale →
        sizeLimit ≤ |((signed negative num : ℤ) : ℚ) / den| * 10 ^ t) ∧
      d.value = halfEven (((signed negative num : ℤ) : ℚ) / den * 10 ^ s) / 10 ^ s := by
  have hfound : ∀ s, ofParts? negative (roundHalfEven (num * 10 ^ s) den) s = some d →
      s ≤ maxScale ∧ |((signed negative num : ℤ) : ℚ) / den| * 10 ^ s < sizeLimit ∧
        d.value = halfEven (((signed negative num : ℤ) : ℚ) / den * 10 ^ s) / 10 ^ s := by
    intro s hparts
    obtain ⟨hm, hs, -⟩ := ofParts?_eq_some_iff.1 hparts
    refine ⟨hs, (roundHalfEven_lt_bound_iff negative hden s).1 hm, ?_⟩
    have hscaled : ((signed negative num : ℤ) : ℚ) / den * 10 ^ s =
        (signed negative (num * 10 ^ s) : ℤ) / den := by
      rw [signed_cast, signed_cast]
      push_cast
      ring
    rw [value_ofParts? hparts, hscaled, halfEven_signed hden]
  induction scale with
  | zero =>
    have hparts : ofParts? negative (roundHalfEven (num * 10 ^ 0) den) 0 = some d := by
      simpa [nearest?] using h
    obtain ⟨hs, hroom, hvalue⟩ := hfound 0 hparts
    exact ⟨0, le_rfl, hs, hroom, fun t ht hle => absurd ht (not_lt.2 hle), hvalue⟩
  | succ n ih =>
    rw [nearest?] at h
    cases hparts : ofParts? negative (roundHalfEven (num * 10 ^ (n + 1)) den) (n + 1) with
    | some e =>
      rw [hparts] at h
      obtain rfl : e = d := by simpa using h
      obtain ⟨hs, hroom, hvalue⟩ := hfound (n + 1) hparts
      exact ⟨n + 1, le_rfl, hs, hroom, fun t ht hle => absurd ht (not_lt.2 hle), hvalue⟩
    | none =>
      rw [hparts] at h
      obtain ⟨s, hle, hs, hroom, hfiner, hvalue⟩ := ih h
      refine ⟨s, by omega, hs, hroom, ?_, hvalue⟩
      intro t ht htn hmax
      rcases Nat.lt_or_ge t (n + 1) with hlt | hge
      · exact hfiner t ht (by omega) hmax
      · obtain rfl : t = n + 1 := by omega
        have hbig := ofParts?_eq_none_iff.1 hparts hmax
        rw [← not_lt, ← roundHalfEven_lt_bound_iff negative hden]
        exact not_lt.2 hbig

theorem nearest?_eq_none (hden : 0 < den) (h : nearest? negative num den scale = none) :
    sizeLimit ≤ |((signed negative num : ℤ) : ℚ) / den| := by
  induction scale with
  | zero =>
    have hparts : ofParts? negative (roundHalfEven (num * 10 ^ 0) den) 0 = none := by
      simpa [nearest?] using h
    have hbig := ofParts?_eq_none_iff.1 hparts (Nat.zero_le _)
    rw [← not_lt]
    intro hroom
    rw [← mul_one |_|, ← pow_zero (10 : ℚ)] at hroom
    exact absurd ((roundHalfEven_lt_bound_iff negative hden 0).2 hroom) (not_lt.2 hbig)
  | succ n ih =>
    rw [nearest?] at h
    split at h
    · cases h
    · exact ih h

/-- Where the search starts with all digits of the number, it fits the number. -/
theorem map_value_nearest? (negative : Bool) (num scale : Nat) :
    (nearest? negative num (10 ^ scale) scale).map value =
      if |((signed negative num : ℤ) : ℚ) / 10 ^ scale| < sizeLimit then
        some (fitted ((signed negative num : ℤ) / 10 ^ scale))
      else none := by
  have hden : 0 < 10 ^ scale := Nat.pow_pos (by decide)
  have hcast : (((10 ^ scale : Nat) : Nat) : ℚ) = 10 ^ scale := by push_cast; rfl
  set x : ℚ := (signed negative num : ℤ) / 10 ^ scale with hx
  cases h : nearest? negative num (10 ^ scale) scale with
  | none =>
    have hbig := nearest?_eq_none hden h
    rw [hcast] at hbig
    rw [if_neg (not_lt.2 hbig)]
    rfl
  | some d =>
    obtain ⟨s, hle, hs, hroom, hfiner, hvalue⟩ := nearest?_eq_some hden h
    rw [hcast, ← hx] at hroom hfiner hvalue
    have hfits : |x| < sizeLimit := by simpa using fits_of_le (Nat.zero_le s) hroom
    rw [if_pos hfits, Option.map_some, hvalue]
    congr 1
    have hbelow : s ≤ finestScale x := le_finestScale hs hroom
    rcases Nat.lt_or_ge s (finestScale x) with hlt | hge
    · -- the digits of the number end before its finest place, and it is exact at both
      have hall : scale ≤ s := by
        by_contra hnot
        have hnext : |x| * 10 ^ (s + 1) < sizeLimit := fits_of_le hlt (fits_finestScale hfits)
        have hmax : s + 1 ≤ maxScale := le_trans hlt (finestScale_le x)
        exact absurd hnext (not_lt.2 (hfiner (s + 1) (Nat.lt_succ_self s) (by omega) hmax))
      have hint : x * 10 ^ scale = ((signed negative num : ℤ) : ℚ) := by
        rw [hx, div_mul_cancel₀ _ (by positivity)]
      rw [fitted, halfEven_div_of_int hint hall, halfEven_div_of_int hint (hall.trans hbelow)]
    · rw [fitted, le_antisymm hge hbelow]

end Search

/-! ### Checked arithmetic -/

section Arithmetic

variable {a b d : Decimal}

/-- The result of an operation: the exact number fitted, where it is below the size
    limit. -/
structure Gives (result? : Option Decimal) (x : ℚ) : Prop where
  value : ∀ {d}, result? = some d → d.value = fitted x
  isSome_iff : result?.isSome ↔ |x| < sizeLimit

theorem Gives.of_value {x : ℚ} (h : d.value = x) : Gives (some d) x := by
  subst h
  constructor
  · intro e he
    cases he
    exact (fitted_value d).symm
  · exact iff_of_true rfl d.abs_value_lt

theorem gives_nearest? (negative : Bool) (num scale : Nat) :
    Gives (nearest? negative num (10 ^ scale) scale)
      ((signed negative num : ℤ) / 10 ^ scale) := by
  have hmap := map_value_nearest? negative num scale
  constructor
  · intro d hd
    rw [hd, Option.map_some] at hmap
    split at hmap
    · exact Option.some.inj hmap
    · cases hmap
  · rw [← Option.isSome_map (f := value), hmap]
    split <;> simp_all

theorem gives_add (a b : Decimal) : Gives (a.add? b) (a.value + b.value) := by
  unfold add?
  split
  · rename_i hzero
    exact .of_value (by rw [isZero_iff.1 hzero, zero_add])
  · split
    · rename_i hzero
      exact .of_value (by rw [isZero_iff.1 hzero, add_zero])
    · have h := gives_nearest? (a.coeff * 10 ^ (max a.scale b.scale - a.scale) +
        b.coeff * 10 ^ (max a.scale b.scale - b.scale) < 0)
        (a.coeff * 10 ^ (max a.scale b.scale - a.scale) +
        b.coeff * 10 ^ (max a.scale b.scale - b.scale)).natAbs (max a.scale b.scale)
      rwa [signed_natAbs, ← value_add_eq] at h

theorem gives_sub (a b : Decimal) : Gives (a.sub? b) (a.value - b.value) := by
  rw [sub_eq_add_neg, ← value_subtrahend]
  exact gives_add a _

theorem value_mul_eq (a b : Decimal) :
    a.value * b.value =
      ((signed (a.negative != b.negative) (a.magnitude * b.magnitude) : ℤ) : ℚ) /
        10 ^ (a.scale + b.scale) := by
  rw [value_eq, value_eq, coeff, coeff, signed_cast, signed_cast, signed_cast, pow_add]
  push_cast
  cases a.negative <;> cases b.negative <;> simp <;> field_simp

/-- Short factors with many fractional digits have a product below half of the last
    place. -/
theorem fitted_short_mul (ha : a.isShort = true) (hb : b.isShort = true)
    (hscale : shortProductScale < a.scale + b.scale) : fitted (a.value * b.value) = 0 := by
  simp only [isShort, decide_eq_true_eq] at ha hb
  have hsize : (a.magnitude : ℚ) * b.magnitude < 2 ^ 64 := by
    have hnat : a.magnitude * b.magnitude < 2 ^ 32 * 2 ^ 32 := Nat.mul_lt_mul'' ha hb
    calc (a.magnitude : ℚ) * b.magnitude < ((2 ^ 32 * 2 ^ 32 : ℕ) : ℚ) := by exact_mod_cast hnat
      _ = 2 ^ 64 := by norm_num
  have hpow : (10 : ℚ) ^ 48 ≤ 10 ^ (a.scale + b.scale) :=
    pow_le_pow_right₀ (by norm_num) hscale
  have hsmall : |a.value * b.value| * 10 ^ maxScale < 1 / 2 := by
    rw [abs_mul, abs_value, abs_value, div_mul_div_comm, ← pow_add, div_mul_eq_mul_div,
      div_lt_div_iff₀ (by positivity) two_pos]
    have hmax : (10 : ℚ) ^ maxScale = 10 ^ 28 := rfl
    rw [hmax]
    nlinarith
  have hfinest : finestScale (a.value * b.value) = maxScale := by
    refine le_antisymm (finestScale_le _) (le_finestScale le_rfl (hsmall.trans ?_))
    norm_num [sizeLimit, bound]
  have hround : halfEven (a.value * b.value * 10 ^ maxScale) = 0 := by
    apply halfEven_eq_of_nearestEven
    left
    rw [Int.cast_zero, sub_zero, abs_mul, abs_of_pos (by positivity : (0 : ℚ) < 10 ^ maxScale)]
    exact hsmall
  rw [fitted, hfinest, hround, Int.cast_zero, zero_div]

theorem gives_mul (a b : Decimal) : Gives (a.mul? b) (a.value * b.value) := by
  unfold mul?
  simp only
  split
  · rename_i hzero
    rw [Bool.or_eq_true, isZero_iff, isZero_iff, ← mul_eq_zero] at hzero
    exact .of_value (by rw [value_zero, hzero])
  · split
    · rename_i hshort
      simp only [Bool.and_eq_true, decide_eq_true_eq] at hshort
      have hzero := fitted_short_mul hshort.1.1 hshort.1.2 hshort.2
      constructor
      · intro d hd
        cases hd
        rw [hzero, value_zero]
      · refine iff_of_true rfl ?_
        have hnear := abs_fitted_sub_le (a.value * b.value)
        rw [hzero, zero_sub, abs_neg] at hnear
        exact lt_of_le_of_lt hnear (by norm_num [sizeLimit, bound])
    · rw [value_mul_eq]
      exact gives_nearest? _ _ _

end Arithmetic

end Decimal

end PointOfSale

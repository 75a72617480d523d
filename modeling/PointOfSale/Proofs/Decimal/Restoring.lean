/-
  PointOfSale/Proofs/Decimal/Restoring.lean
  =========================================
  **A number of cents after something was taken off and put back**, with a rounding
  to whole cents after each of the two.  Away from half cents the second rounding
  makes up for the first one.  On a half cent the two agree on the even neighbours
  only: an even number of cents comes back, and an odd one does not
  (`halfEven_restores`, `halfEven_restores_tie`).
-/
import PointOfSale.Proofs.Decimal.Cents

namespace PointOfSale

/-! ### Rounding twice -/

theorem halfEven_add_half (n : ℤ) : halfEven (n + 1 / 2) = n + n % 2 := by
  apply halfEven_eq_of_nearestEven
  right
  rcases Int.emod_two_eq_zero_or_one n with h | h
  · rw [h, add_zero, add_sub_cancel_left]
    exact ⟨by norm_num, h⟩
  · rw [h]
    refine ⟨?_, by omega⟩
    have hbelow : (n : ℚ) + 1 / 2 - ((n + 1 : ℤ) : ℚ) = -(1 / 2) := by
      push_cast
      ring
    rw [hbelow, abs_neg]
    norm_num

/-- Some integer is nearer than a half, by as much as the fraction is away from a half. -/
theorem exists_near_int (n : ℤ) (y : ℚ) :
    ∃ k : ℤ, |(n : ℚ) - y - k| ≤ 1 / 2 - |Int.fract y - 1 / 2| := by
  have hfract := Int.floor_add_fract y
  have hnonneg := Int.fract_nonneg y
  have hlt := Int.fract_lt_one y
  rcases le_total (Int.fract y) (1 / 2) with h | h
  · refine ⟨n - ⌊y⌋, ?_⟩
    have hrest : (n : ℚ) - y - ((n - ⌊y⌋ : ℤ) : ℚ) = -Int.fract y := by
      push_cast
      linarith
    rw [hrest, abs_neg, abs_of_nonneg hnonneg, abs_of_nonpos (by linarith)]
    linarith
  · refine ⟨n - ⌊y⌋ - 1, ?_⟩
    have hrest : (n : ℚ) - y - ((n - ⌊y⌋ - 1 : ℤ) : ℚ) = 1 - Int.fract y := by
      push_cast
      linarith
    rw [hrest, abs_of_nonneg (by linarith), abs_of_nonneg (by linarith)]
    linarith

variable {n : ℤ} {y u v error : ℚ}

theorem halfEven_near (hu : |u - (n - y)| ≤ error) (hv : |v - (halfEven u + y)| ≤ error)
    (herror : error < 1 / 2) : |halfEven v - n| ≤ 1 := by
  have hfirst := abs_le.1 (nearestEven_halfEven u).abs_sub_le
  have hsecond := abs_le.1 (nearestEven_halfEven v).abs_sub_le
  rw [abs_le] at hu hv
  have hlt : |((halfEven v - n : ℤ) : ℚ)| < 2 := by
    rw [abs_lt]
    push_cast
    constructor <;> linarith
  have hint : |halfEven v - n| < 2 := by exact_mod_cast hlt
  omega

/-- **Farther from a half than the sums are from the exact ones**, an integer comes back. -/
theorem halfEven_restores (hu : |u - (n - y)| ≤ error) (hv : |v - (halfEven u + y)| ≤ error)
    (hfar : error < |Int.fract y - 1 / 2|) : halfEven v = n := by
  -- what is left is rounded to `k`, and the rest up to `n` is too small to change that
  obtain ⟨k, hk⟩ := exists_near_int n y
  rw [abs_le] at hu hv hk
  have hfirst : halfEven u = k := by
    apply halfEven_eq_of_nearestEven
    left
    rw [abs_lt]
    constructor <;> linarith
  apply halfEven_eq_of_nearestEven
  left
  rw [hfirst] at hv
  rw [abs_lt]
  constructor <;> linarith

/-- On a half and with exact sums, the even integers come back. -/
theorem halfEven_restores_tie (hy : Int.fract y = 1 / 2) :
    halfEven (halfEven (n - y) + y) = n ↔ n % 2 = 0 := by
  have hfloor := Int.floor_add_fract y
  have htaken : (n : ℚ) - y = ((n - ⌊y⌋ - 1 : ℤ) : ℚ) + 1 / 2 := by
    push_cast
    linarith
  rw [htaken, halfEven_add_half]
  generalize hround : n - ⌊y⌋ - 1 + (n - ⌊y⌋ - 1) % 2 = k
  have hback : (k : ℚ) + y = ((k + ⌊y⌋ : ℤ) : ℚ) + 1 / 2 := by
    push_cast
    linarith
  rw [hback, halfEven_add_half]
  omega

/-! ### Amounts -/

/-- Half a cent more than a number of cents. -/
def IsHalfCent (y : ℚ) : Prop := Int.fract (y * 100) = 1 / 2

/-- So little off a half cent that the last place of large amounts does not show it. -/
def NearHalfCent (y : ℚ) : Prop := |Int.fract (y * 100) - 1 / 2| ≤ 1 / (2 * 10 ^ 6)

def IsEvenCents (x : ℚ) : Prop := (x * 50).den = 1

/-- A decimal of the size of both numbers together has room for cents, and for all digits
    of the second. -/
def DigitsFit (x y : ℚ) : Prop :=
  ∃ places, moneyPlaces ≤ places ∧ places ≤ Decimal.maxScale ∧ (y * 10 ^ places).den = 1 ∧
    (|x| + |y| + 1) * 10 ^ places ≤ Decimal.bound

/-- How an amount comes back after another was taken off and put back. -/
structure Restored (x y z : ℚ) : Prop where
  near : |z - x| ≤ 1 / 100
  same : ¬ NearHalfCent y → z = x
  tie : DigitsFit x y → (z = x ↔ (IsHalfCent y → IsEvenCents x))

theorem isEvenCents_iff {x : ℚ} (hn : x * 100 = n) : IsEvenCents x ↔ n % 2 = 0 := by
  have hhalf : x * 50 = n / 2 := by linarith
  rw [IsEvenCents, hhalf]
  constructor
  · intro hden
    have hnum : ((n : ℚ) / 2).num = (n : ℚ) / 2 := (Rat.den_eq_one_iff _).1 hden
    have hdouble : n = 2 * ((n : ℚ) / 2).num := by
      have hrat : (n : ℚ) = ((2 * ((n : ℚ) / 2).num : ℤ) : ℚ) := by
        push_cast
        rw [hnum]
        ring
      exact_mod_cast hrat
    omega
  · intro heven
    obtain ⟨k, rfl⟩ := Int.dvd_of_emod_eq_zero heven
    have hk : ((2 * k : ℤ) : ℚ) / 2 = k := by
      push_cast
      ring
    rw [hk, Rat.den_intCast]

/-- Both sums miss the exact ones by half of the eighth place at most. -/
theorem restored_of_sums {x : ℚ} (hx : IsCents x) (hu : |u - (x - y)| ≤ 1 / (2 * 10 ^ 8))
    (hv : |v - (halfEven (u * 100) / 100 + y)| ≤ 1 / (2 * 10 ^ 8))
    (hexact : DigitsFit x y → u = x - y ∧ v = halfEven (u * 100) / 100 + y) :
    Restored x y (halfEven (v * 100) / 100) := by
  obtain ⟨n, hn⟩ := isCents_iff.1 hx
  have hback : ∀ {z : ℤ}, (z : ℚ) / 100 = x ↔ z = n := by
    intro z
    rw [div_eq_iff (by norm_num), hn]
    exact Int.cast_inj
  have huCents : |u * 100 - (n - y * 100)| ≤ 1 / (2 * 10 ^ 6) := by
    rw [abs_le] at hu ⊢
    constructor <;> linarith
  have hvCents : |v * 100 - (halfEven (u * 100) + y * 100)| ≤ 1 / (2 * 10 ^ 6) := by
    rw [abs_le] at hv ⊢
    constructor <;> linarith
  constructor
  · have hint : ((|halfEven (v * 100) - n| : ℤ) : ℚ) ≤ 1 := by
      exact_mod_cast halfEven_near huCents hvCents (by norm_num)
    push_cast at hint
    rw [abs_le] at hint ⊢
    constructor <;> linarith
  · intro hfar
    exact hback.2 (halfEven_restores huCents hvCents (not_le.1 hfar))
  · intro hfit
    obtain ⟨rfl, rfl⟩ := hexact hfit
    have htaken : (x - y) * 100 = n - y * 100 := by rw [sub_mul, hn]
    have hput : (halfEven ((x - y) * 100) / 100 + y) * 100 =
        halfEven (n - y * 100) + y * 100 := by
      rw [htaken]
      ring
    rw [hback, hput, isEvenCents_iff hn]
    by_cases hhalf : IsHalfCent y
    · rw [halfEven_restores_tie hhalf]
      exact ⟨fun h _ => h, fun h => h hhalf⟩
    · have hfar : 0 < |Int.fract (y * 100) - 1 / 2| := abs_pos.2 (sub_ne_zero.2 hhalf)
      have hexactly : ∀ q : ℚ, |q - q| ≤ 0 := by simp
      have hrestored := halfEven_restores (hexactly (n - y * 100)) (hexactly _) hfar
      exact ⟨fun _ h => absurd h hhalf, fun _ => hrestored⟩

/-! ### Checked sums -/

/-- Up to this size eight places of an amount have room. -/
def amountLimit : ℚ := 10 ^ 20

theorem room_of_lt {x : ℚ} (h : |x| < 5 * amountLimit) : |x| * 10 ^ 8 + 1 / 2 < Decimal.bound := by
  have hbound : (Decimal.bound : ℚ) = 79228162514264337593543950336 := by norm_num [Decimal.bound]
  rw [amountLimit] at h
  rw [hbound]
  linarith

theorem heldAt_of_isCents_add {z : ℚ} {places : Nat} (hz : IsCents z)
    (hplaces : moneyPlaces ≤ places) (hy : (y * 10 ^ places).den = 1)
    (hroom : |z + y| * 10 ^ places < Decimal.bound) : HeldAt places (z + y) := by
  refine ⟨?_, hroom⟩
  obtain ⟨n, hn⟩ := isCents_iff.1 hz
  obtain ⟨k, rfl⟩ := Nat.exists_eq_add_of_le hplaces
  have hnum := (Rat.den_eq_one_iff _).1 hy
  have hsum : (z + y) * 10 ^ (moneyPlaces + k) =
      ((n * 10 ^ k + (y * 10 ^ (moneyPlaces + k)).num : ℤ) : ℚ) := by
    push_cast
    rw [hnum, add_mul, ← hn, moneyPlaces, pow_add]
    ring
  rw [hsum, Rat.den_intCast]

namespace Decimal

variable {a m : Decimal}

theorem sub?_of_limits (ha : IsCents a.value) (hlimit : |a.value| < amountLimit)
    (hm : |m.value| < 3 * amountLimit) :
    ∃ u, a.sub? m = some u ∧ |u.value - (a.value - m.value)| ≤ 1 / (2 * 10 ^ 8) ∧
      (DigitsFit a.value m.value → u.value = a.value - m.value) := by
  have hsize : |a.value - m.value| ≤ |a.value| + |m.value| := abs_sub _ _
  obtain ⟨u, hu, hnear⟩ := sub?_near 8 (by decide)
    (room_of_lt (lt_of_le_of_lt hsize (by linarith [abs_nonneg a.value])))
  refine ⟨u, hu, hnear, ?_⟩
  rintro ⟨places, hcents, hplaces, hdigits, hroom⟩
  have hneg : (-m.value * 10 ^ places).den = 1 := by
    rw [neg_mul, Rat.den_neg_eq_den, hdigits]
  have hpow : (0 : ℚ) < 10 ^ places := by positivity
  have hbelow : |a.value + -m.value| * 10 ^ places < bound := by
    rw [← sub_eq_add_neg]
    refine lt_of_lt_of_le (mul_lt_mul_of_pos_right ?_ hpow) hroom
    linarith
  have hheld := heldAt_of_isCents_add ha hcents hneg hbelow
  rw [← sub_eq_add_neg] at hheld
  obtain ⟨d, hd, hvalue⟩ := sub?_of_heldAt hplaces hheld
  rw [hu, Option.some.injEq] at hd
  rwa [hd]

theorem add?_of_limits {x : ℚ} (ha : IsCents a.value) (hlimit : |x| < amountLimit)
    (hback : |a.value + m.value - x| ≤ 1 / 100) :
    ∃ v, a.add? m = some v ∧ |v.value - (a.value + m.value)| ≤ 1 / (2 * 10 ^ 8) ∧
      (DigitsFit x m.value → v.value = a.value + m.value) := by
  have hsize : |a.value + m.value| ≤ |x| + 1 / 100 := by
    have hsplit : a.value + m.value = x + (a.value + m.value - x) := by ring
    rw [hsplit]
    exact (abs_add_le _ _).trans (by linarith)
  have hsmall : |a.value + m.value| < 5 * amountLimit := by
    have hone : (1 : ℚ) ≤ amountLimit := by norm_num [amountLimit]
    linarith
  obtain ⟨v, hv, hnear⟩ := add?_near 8 (by decide) (room_of_lt hsmall)
  refine ⟨v, hv, hnear, ?_⟩
  rintro ⟨places, hcents, hplaces, hdigits, hroom⟩
  have hpow : (0 : ℚ) < 10 ^ places := by positivity
  have hbelow : |a.value + m.value| * 10 ^ places < bound := by
    refine lt_of_lt_of_le (mul_lt_mul_of_pos_right ?_ hpow) hroom
    have hnonneg := abs_nonneg m.value
    linarith
  obtain ⟨d, hd, hvalue⟩ := add?_of_heldAt hplaces
    (heldAt_of_isCents_add ha hcents hdigits hbelow)
  rw [hv, Option.some.injEq] at hd
  rwa [hd]

end Decimal

end PointOfSale

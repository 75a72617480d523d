/-
  PointOfSale/Proofs/Binary64/Nearest.lean
  ========================================
  **The nearest floating-point value, on the rationals.**  The value for a quotient
  depends on the quotient alone: `nearest size` is a whole number of steps, and the step
  grows with the number so that 53 binary digits hold it (`lt_binade`, `binade_le`).  A
  number with few digits is held exactly; any other is missed by at most one part in
  `2 ^ 53` of itself, unless it is too small for its digits or too great for the format.

  Every operation forms its exact result and rounds it once, so each is `ofSize?` of a
  rational.
-/
import Mathlib.Algebra.Order.Floor.Semifield
import PointOfSale.Binary64
import PointOfSale.Proofs.Decimal.Rounding

namespace PointOfSale.Binary64

theorem stepBits_lt : stepBits < 2045 := by decide

-- powers of two with this exponent are never computed
attribute [local irreducible] stepBits

/-! ### Sizes -/

/-- The rational number that the size of a value denotes. -/
def size (x : Binary64) : ℚ := x.steps / 2 ^ stepBits

theorem size_nonneg (x : Binary64) : 0 ≤ x.size := by
  unfold size
  positivity

theorem steps_eq (x : Binary64) : (x.steps : ℚ) = x.size * 2 ^ stepBits := by
  rw [size, div_mul_cancel₀ _ (by positivity)]

theorem steps_cast (x : Binary64) : (x.steps : ℚ) = x.mant * 2 ^ x.shift := by
  rw [steps]
  push_cast
  rfl

theorem isZero_iff {x : Binary64} : x.isZero = true ↔ x.size = 0 := by
  have hpow : (2 : ℚ) ^ stepBits ≠ 0 := by positivity
  have hshift : (2 : ℚ) ^ x.shift ≠ 0 := by positivity
  rw [size, div_eq_zero_iff, or_iff_left hpow, steps_cast, mul_eq_zero, or_iff_left hshift]
  simp [isZero]

theorem size_of_steps {x : Binary64} {q : ℚ} (h : (x.steps : ℚ) = q * 2 ^ stepBits) :
    x.size = q := by
  rw [size, h, mul_div_cancel_right₀ _ (by positivity)]

/-! ### The step of a number -/

/-- The binary exponent of the step in which a number is counted. -/
def binade (q : ℚ) : Nat := Nat.log2 ⌊q * 2 ^ stepBits⌋₊ - 52

/-- How many of its steps a number has, to the nearest. -/
def significand (q : ℚ) : Nat := (halfEven (q * 2 ^ stepBits / 2 ^ binade q)).toNat

/-- The value for a rational number. -/
def ofSize? (q : ℚ) : Option Binary64 :=
  if significand q = 2 ^ 53 then ofParts? false (2 ^ 52) (binade q + 1)
  else ofParts? false (significand q) (binade q)

theorem nearest?_eq_ofSize? {num den : Nat} (hden : 0 < den) :
    nearest? num den = ofSize? (num / den) := by
  have hsteps : (num : ℚ) / den * 2 ^ stepBits = ((num * 2 ^ stepBits : ℕ) : ℚ) / den := by
    push_cast
    ring
  have hbinade : Nat.log2 (num * 2 ^ stepBits / den) - 52 = binade (num / den) := by
    rw [binade, hsteps, Nat.floor_div_eq_div]
  have hround : roundHalfEven (num * 2 ^ stepBits) (den * 2 ^ binade ((num : ℚ) / den)) =
      significand (num / den) := by
    have hquotient : (num : ℚ) / den * 2 ^ stepBits / 2 ^ binade ((num : ℚ) / den) =
        ((num * 2 ^ stepBits : ℕ) : ℚ) / ((den * 2 ^ binade ((num : ℚ) / den) : ℕ) : ℚ) := by
      rw [hsteps]
      push_cast
      rw [div_div]
    rw [significand, hquotient, halfEven_div (Nat.mul_pos hden (by positivity)), Int.toNat_natCast]
  unfold nearest? ofSize?
  simp only [hbinade, hround]

section Size

variable {q : ℚ}

theorem lt_binade (q : ℚ) : q * 2 ^ stepBits < 2 ^ (53 + binade q) := by
  have hlog : ⌊q * 2 ^ stepBits⌋₊ < 2 ^ (53 + binade q) := by
    refine Nat.lt_of_lt_of_le Nat.lt_log2_self (Nat.pow_le_pow_right (by decide) ?_)
    unfold binade
    omega
  have hfloor := Nat.lt_floor_add_one (q * 2 ^ stepBits)
  have hnext : (⌊q * 2 ^ stepBits⌋₊ : ℚ) + 1 ≤ 2 ^ (53 + binade q) := by exact_mod_cast hlog
  linarith

/-- A number that is not counted in the smallest steps fills 53 binary digits. -/
theorem binade_le (hq : 0 ≤ q) (h : binade q ≠ 0) : 2 ^ (52 + binade q) ≤ q * 2 ^ stepBits := by
  have hne : ⌊q * 2 ^ stepBits⌋₊ ≠ 0 := by
    intro hzero
    rw [binade, hzero] at h
    exact h rfl
  have hlog : 52 + binade q = Nat.log2 ⌊q * 2 ^ stepBits⌋₊ := by
    unfold binade at h ⊢
    omega
  have hself : ((2 ^ (52 + binade q) : ℕ) : ℚ) ≤ ⌊q * 2 ^ stepBits⌋₊ := by
    rw [hlog]
    exact_mod_cast Nat.log2_self_le hne
  have hfloor : (⌊q * 2 ^ stepBits⌋₊ : ℚ) ≤ q * 2 ^ stepBits := Nat.floor_le (by positivity)
  push_cast at hself
  exact hself.trans hfloor

/-- The step of a number that is large enough is at most one part in `2 ^ 52` of it. -/
theorem two_pow_binade_le (h : 2 ^ 52 ≤ q * 2 ^ stepBits) :
    2 ^ binade q * 2 ^ 52 ≤ q * 2 ^ stepBits := by
  by_cases hbinade : binade q = 0
  · simpa [hbinade] using h
  · have hq : 0 ≤ q := by
      have hpow : (0 : ℚ) < 2 ^ stepBits := by positivity
      exact nonneg_of_mul_nonneg_left (le_trans (by norm_num) h) hpow
    have hle := binade_le hq hbinade
    rwa [add_comm, pow_add] at hle

theorem nearestEven_significand (hq : 0 ≤ q) :
    NearestEven (q * 2 ^ stepBits / 2 ^ binade q) (significand q) := by
  have hround : (0 : ℤ) ≤ halfEven (q * 2 ^ stepBits / 2 ^ binade q) :=
    halfEven_nonneg (by positivity)
  rw [significand, Int.toNat_of_nonneg hround]
  exact nearestEven_halfEven _

theorem significand_le (q : ℚ) : significand q ≤ 2 ^ 53 := by
  have hlt : q * 2 ^ stepBits / 2 ^ binade q ≤ 2 ^ 53 := by
    rw [div_le_iff₀ (by positivity), ← pow_add]
    exact (lt_binade q).le
  have hround : halfEven (q * 2 ^ stepBits / 2 ^ binade q) ≤ ((2 ^ 53 : ℕ) : ℤ) := by
    rw [← halfEven_intCast ((2 ^ 53 : ℕ) : ℤ)]
    refine halfEven_mono (hlt.trans_eq ?_)
    norm_num
  unfold significand
  omega

theorem le_significand (hq : 0 ≤ q) (h : binade q ≠ 0) : 2 ^ 52 ≤ significand q := by
  have hle : 2 ^ 52 ≤ q * 2 ^ stepBits / 2 ^ binade q := by
    rw [le_div_iff₀ (by positivity), ← pow_add]
    exact binade_le hq h
  have hround : ((2 ^ 52 : ℕ) : ℤ) ≤ halfEven (q * 2 ^ stepBits / 2 ^ binade q) := by
    rw [← halfEven_intCast ((2 ^ 52 : ℕ) : ℤ)]
    refine halfEven_mono (Eq.trans_le ?_ hle)
    norm_num
  unfold significand
  omega

/-! ### The value for a number -/

theorem ofParts?_eq_some_iff {negative : Bool} {mant shift : Nat} {x : Binary64} :
    ofParts? negative mant shift = some x ↔
      x.negative = negative ∧ x.mant = mant ∧ x.shift = shift := by
  constructor
  · intro h
    unfold ofParts? at h
    split at h
    · cases h
      exact ⟨rfl, rfl, rfl⟩
    · cases h
  · rintro ⟨rfl, rfl, rfl⟩
    rw [ofParts?, dif_pos ⟨x.mant_lt, x.shift_le, x.full⟩]

/-- The significand of the value is that of the number, or it is carried into the next
    binary digit. -/
theorem parts_of_ofSize? {x : Binary64} (h : ofSize? q = some x) :
    x.mant = significand q ∧ x.shift = binade q ∨
      significand q = 2 ^ 53 ∧ x.mant = 2 ^ 52 ∧ x.shift = binade q + 1 := by
  unfold ofSize? at h
  split at h
  · rename_i hcarried
    exact .inr ⟨hcarried, (ofParts?_eq_some_iff.1 h).2⟩
  · exact .inl (ofParts?_eq_some_iff.1 h).2

theorem steps_of_ofSize? {x : Binary64} (h : ofSize? q = some x) :
    x.steps = significand q * 2 ^ binade q := by
  rw [steps]
  rcases parts_of_ofSize? h with ⟨hmant, hshift⟩ | ⟨hcarried, hmant, hshift⟩
  · rw [hmant, hshift]
  · rw [hmant, hshift, hcarried, pow_succ 2 (binade q)]
    ring

theorem exists_ofSize? (hq : 0 ≤ q) (h : binade q < 2045) : ∃ x, ofSize? q = some x := by
  unfold ofSize?
  split
  · rw [ofParts?, dif_pos ⟨by norm_num, h, Or.inl le_rfl⟩]
    exact ⟨_, rfl⟩
  · rename_i hne
    have hlt : significand q < 2 ^ 53 := lt_of_le_of_ne (significand_le q) hne
    have hfull : 2 ^ 52 ≤ significand q ∨ binade q = 0 := by
      by_cases hzero : binade q = 0
      · exact .inr hzero
      · exact .inl (le_significand hq hzero)
    rw [ofParts?, dif_pos ⟨hlt, h.le, hfull⟩]
    exact ⟨_, rfl⟩

theorem binade_lt (hq : 0 ≤ q) (h : q < 2 ^ 100) : binade q < 2045 := by
  by_contra hge
  have hle := binade_le hq (by omega)
  have hlt : q * 2 ^ stepBits < 2 ^ (100 + stepBits) := by
    rw [pow_add]
    exact mul_lt_mul_of_pos_right h (by positivity)
  have hexponent : (2 : ℚ) ^ (100 + stepBits) ≤ 2 ^ (52 + binade q) := by
    apply pow_le_pow_right₀ (by norm_num)
    unfold stepBits
    omega
  linarith

/-- **A number is missed by at most one part in `2 ^ 53` of itself.** -/
theorem exists_ofSize?_near (hlow : 2 ^ 52 ≤ q * 2 ^ stepBits) (hhigh : q < 2 ^ 100) :
    ∃ x, ofSize? q = some x ∧ |x.size - q| ≤ q / 2 ^ 53 := by
  have hpow : (0 : ℚ) < 2 ^ stepBits := by positivity
  have hq : 0 ≤ q := nonneg_of_mul_nonneg_left (le_trans (by norm_num) hlow) hpow
  obtain ⟨x, hx⟩ := exists_ofSize? hq (binade_lt hq hhigh)
  refine ⟨x, hx, ?_⟩
  have hstep : (0 : ℚ) < 2 ^ binade q := by positivity
  have hnear := (nearestEven_significand hq).abs_sub_le
  have hsteps : (x.steps : ℚ) = significand q * 2 ^ binade q := by exact_mod_cast steps_of_ofSize? hx
  -- a number is missed by at most half its step
  have hmissed : |x.size * 2 ^ stepBits - q * 2 ^ stepBits| ≤ 2 ^ binade q / 2 := by
    have hscaled : x.size * 2 ^ stepBits - q * 2 ^ stepBits =
        -(q * 2 ^ stepBits / 2 ^ binade q - significand q) * 2 ^ binade q := by
      rw [← steps_eq, hsteps]
      field_simp
      ring
    rw [hscaled, abs_mul, abs_neg, abs_of_pos hstep]
    push_cast at hnear
    calc _ ≤ 1 / 2 * 2 ^ binade q := mul_le_mul_of_nonneg_right hnear hstep.le
      _ = _ := by ring
  rw [← sub_mul, abs_mul, abs_of_pos hpow] at hmissed
  have hbound := two_pow_binade_le hlow
  rw [le_div_iff₀ (by positivity), ← mul_le_mul_iff_left₀ hpow]
  linarith

/-- A number of at most 53 binary digits is held exactly. -/
theorem exists_ofSize?_exact {mant shift : Nat} (hmant : mant < 2 ^ 53) (hshift : shift < 2045)
    (hq : q * 2 ^ stepBits = mant * 2 ^ shift) : ∃ x, ofSize? q = some x ∧ x.size = q := by
  have hpow : (0 : ℚ) < 2 ^ stepBits := by positivity
  have hnonneg : 0 ≤ q := nonneg_of_mul_nonneg_left (by rw [hq]; positivity) hpow
  have hmantcast : (mant : ℚ) + 1 ≤ 2 ^ 53 := by exact_mod_cast hmant
  -- no number of so few digits is counted in greater steps than its own
  have hbinade : binade q ≤ shift := by
    by_contra hlt
    have hle := binade_le hnonneg (by omega)
    have hstep : (2 : ℚ) ^ (53 + shift) ≤ 2 ^ (52 + binade q) :=
      pow_le_pow_right₀ (by norm_num) (by omega)
    rw [hq] at hle
    rw [pow_add] at hstep
    have hpos : (0 : ℚ) < 2 ^ shift := by positivity
    nlinarith
  obtain ⟨x, hx⟩ := exists_ofSize? hnonneg (by omega : binade q < 2045)
  refine ⟨x, hx, size_of_steps ?_⟩
  obtain ⟨k, hk⟩ := Nat.exists_eq_add_of_le hbinade
  have hint : q * 2 ^ stepBits / 2 ^ binade q = ((mant * 2 ^ k : ℕ) : ℤ) := by
    rw [hq, hk, pow_add]
    push_cast
    field_simp
  rw [steps_of_ofSize? hx, significand, hint, halfEven_intCast, Int.toNat_natCast, hq, hk, pow_add]
  push_cast
  ring

theorem exists_ofSize?_nat {n : Nat} (h : n < 2 ^ 53) : ∃ x, ofSize? n = some x ∧ x.size = n := by
  have hsteps : (n : ℚ) * 2 ^ stepBits = n * 2 ^ stepBits := rfl
  exact exists_ofSize?_exact h stepBits_lt hsteps

/-! ### Operations -/

variable {x y : Binary64}

theorem nearest?_one (n : Nat) : nearest? n 1 = ofSize? n := by
  rw [nearest?_eq_ofSize? one_pos, Nat.cast_one, div_one]

theorem add?_eq (x y : Binary64) : x.add? y = ofSize? (x.size + y.size) := by
  rw [add?, nearest?_eq_ofSize? (by positivity), size, size]
  push_cast
  rw [add_div]

theorem mul?_eq (x y : Binary64) : x.mul? y = ofSize? (x.size * y.size) := by
  rw [mul?, nearest?_eq_ofSize? (by positivity), size, size, two_mul, pow_add]
  push_cast
  rw [div_mul_div_comm]

theorem div?_eq (x : Binary64) (hy : y.size ≠ 0) : x.div? y = ofSize? (x.size / y.size) := by
  have hsteps : (y.steps : ℚ) ≠ 0 := by
    rw [steps_eq]
    exact mul_ne_zero hy (by positivity)
  have hpos : 0 < y.steps := Nat.pos_of_ne_zero (by exact_mod_cast hsteps)
  rw [div?, nearest?_eq_ofSize? hpos, size, size, div_div_div_cancel_right₀ (by positivity)]

theorem tenTo?_eq (n : Nat) : tenTo? n = ofSize? (10 ^ n) := by
  rw [tenTo?, nearest?_one]
  push_cast
  rfl

/-- A value that lies within half a unit of a whole number is rounded to it. -/
theorem round?_eq {n : Nat} (h : |x.size - n| < 1 / 2) : x.round? = ofSize? n := by
  have hpow : (0 : ℚ) < 2 ^ stepBits := by positivity
  rw [abs_lt] at h
  have hlow : (2 * n * 2 ^ stepBits : ℚ) ≤ 2 * x.steps + 2 ^ stepBits := by
    rw [steps_eq]
    nlinarith
  have hhigh : (2 * x.steps + 2 ^ stepBits : ℚ) < 2 * (n + 1) * 2 ^ stepBits := by
    rw [steps_eq]
    nlinarith
  have hround : (2 * x.steps + 2 ^ stepBits) / (2 * 2 ^ stepBits) = n := by
    have hlownat : 2 * n * 2 ^ stepBits ≤ 2 * x.steps + 2 ^ stepBits := by exact_mod_cast hlow
    have hhighnat : 2 * x.steps + 2 ^ stepBits < 2 * (n + 1) * 2 ^ stepBits := by
      exact_mod_cast hhigh
    apply Nat.div_eq_of_lt_le
    · rwa [← mul_assoc, mul_comm n 2]
    · rwa [← mul_assoc, mul_comm (n + 1) 2]
  rw [round?, hround, nearest?_one]

/-- Powers of ten are held exactly up to this one. -/
def exactPlaces : Nat := 22

theorem exists_tenTo? {n : Nat} (h : n ≤ exactPlaces) : ∃ x, tenTo? n = some x ∧ x.size = 10 ^ n := by
  have hfive : 5 ^ n < 2 ^ 53 :=
    lt_of_le_of_lt (Nat.pow_le_pow_right (by decide) h) (by decide)
  have hten : (10 : ℚ) ^ n * 2 ^ stepBits = (5 ^ n : ℕ) * 2 ^ (n + stepBits) := by
    rw [show (10 : ℚ) = 5 * 2 by norm_num, mul_pow, pow_add]
    push_cast
    ring
  have hshift : n + stepBits < 2045 := by
    unfold exactPlaces at h
    unfold stepBits
    omega
  rw [tenTo?_eq]
  exact exists_ofSize?_exact hfive hshift hten

end Size

end PointOfSale.Binary64

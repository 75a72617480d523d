/-
  PointOfSale/Proofs/Decimal/Value.lean
  =====================================
  **The number that a decimal denotes**, as a rational.  Sign, size and scale enter
  as `± size / 10 ^ scale`; comparison and the greater of two are those of the
  rationals, whatever the scales.
-/
import Mathlib.Algebra.Order.Field.Rat
import Mathlib.Data.Rat.Lemmas
import Mathlib.Tactic.Linarith
import Mathlib.Tactic.NormNum
import Mathlib.Tactic.Positivity
import Mathlib.Tactic.Push
import Mathlib.Tactic.Ring
import PointOfSale.Decimal.Basic

namespace PointOfSale.Decimal

theorem value_eq (d : Decimal) : d.value = d.coeff / 10 ^ d.scale := by
  rw [value, Rat.mkRat_eq_div]
  push_cast
  rfl

theorem value_mk {negative : Bool} {m s : Nat} (hm : m < bound) (hs : s ≤ maxScale) :
    (Decimal.mk negative m s hm hs).value = signed negative m / 10 ^ s :=
  value_eq _

theorem signed_cast (negative : Bool) (m : Nat) :
    ((signed negative m : ℤ) : ℚ) = (if negative then -1 else 1) * m := by
  cases negative <;> simp [signed]

theorem signed_eq_zero_iff {negative : Bool} {m : Nat} : signed negative m = 0 ↔ m = 0 := by
  cases negative <;> simp [signed]

theorem isZero_iff {d : Decimal} : d.isZero = true ↔ d.value = 0 := by
  have hten : (10 : ℚ) ^ d.scale ≠ 0 := by positivity
  rw [value_eq, div_eq_zero_iff, or_iff_left hten, Int.cast_eq_zero]
  simp [isZero, coeff, signed_eq_zero_iff]

theorem value_ofParts? {negative : Bool} {m s : Nat} {d : Decimal}
    (h : ofParts? negative m s = some d) : d.value = signed negative m / 10 ^ s := by
  unfold ofParts? at h
  split at h
  · cases h
    exact value_mk _ _
  · cases h

/-- A coefficient and a scale in range give a decimal. -/
theorem exists_ofParts? (negative : Bool) {m s : Nat} (hm : m < bound) (hs : s ≤ maxScale) :
    ∃ d, ofParts? negative m s = some d ∧ d.value = signed negative m / 10 ^ s :=
  ⟨⟨negative, m, s, hm, hs⟩, by simp [ofParts?, hm, hs], value_mk hm hs⟩

/-! ### Particular decimals -/

theorem value_ofNat {n : Nat} (h : n < bound) : (ofNat n h).value = n := by
  rw [ofNat, value_mk]
  simp [signed]

@[simp] theorem value_zero : zero.value = 0 := by
  rw [zero, value_ofNat]
  norm_num

@[simp] theorem value_one : one.value = 1 := by
  rw [one, value_ofNat]
  norm_num

@[simp] theorem value_hundred : hundred.value = 100 := by
  rw [hundred, value_ofNat]
  norm_num

@[simp] theorem value_ofUInt32 (n : UInt32) : (ofUInt32 n).value = n.toNat := value_ofNat _

theorem coeff_neg (d : Decimal) : (-d).coeff = -d.coeff := by
  show signed (!d.negative) d.magnitude = -signed d.negative d.magnitude
  cases d.negative <;> simp [signed]

@[simp] theorem value_neg (d : Decimal) : (-d).value = -d.value := by
  rw [value_eq, value_eq, coeff_neg]
  show ((-d.coeff : Int) : ℚ) / 10 ^ d.scale = _
  push_cast
  ring

@[simp] theorem value_minusOne : minusOne.value = -1 := by
  show (-one).value = -1
  rw [value_neg, value_one]

@[simp] theorem value_plainZero (d : Decimal) : d.plainZero.value = d.value := by
  by_cases h : d.magnitude = 0
  · have hzero : d.isZero = true := by simp [isZero, h]
    rw [isZero_iff.1 hzero]
    exact isZero_iff.1 (by simp [isZero, plainZero, h])
  · have hsame : d.plainZero = d := by simp [plainZero, isZero, h]
    rw [hsame]

/-! ### Comparison -/

theorem lt_iff_value_lt {a b : Decimal} : a < b ↔ a.value < b.value := by
  have ha : (0 : ℚ) < 10 ^ a.scale := by positivity
  have hb : (0 : ℚ) < 10 ^ b.scale := by positivity
  rw [value_eq, value_eq, div_lt_div_iff₀ ha hb]
  exact_mod_cast Iff.rfl

@[simp] theorem value_atLeast (a floor : Decimal) :
    (a.atLeast floor).value = max a.value floor.value := by
  unfold atLeast
  split
  · rename_i h
    exact (max_eq_right (lt_iff_value_lt.1 h).le).symm
  · rename_i h
    rw [lt_iff_value_lt, not_lt] at h
    exact (max_eq_left h).symm

end PointOfSale.Decimal

/-
  PointOfSale/Proofs/Decimal/Cents.lean
  =====================================
  **Whole numbers of cents.**  On multiples of a hundredth below `10 ^ 26` in size
  sums and differences are exact, at whatever scales the operands stand, and
  rounding to the places of an amount changes nothing.
-/
import Mathlib.Algebra.Order.BigOperators.Group.List
import PointOfSale.Decimal.Notation
import PointOfSale.Operation
import PointOfSale.Proofs.Decimal.Fitting

namespace PointOfSale

def IsCents (x : ℚ) : Prop := (x * 100).den = 1

instance (x : ℚ) : Decidable (IsCents x) := inferInstanceAs (Decidable ((x * 100).den = 1))

theorem isCents_iff {x : ℚ} : IsCents x ↔ ∃ n : ℤ, x * 100 = n := by
  constructor
  · intro h
    exact ⟨(x * 100).num, ((Rat.den_eq_one_iff _).1 h).symm⟩
  · rintro ⟨n, hn⟩
    rw [IsCents, hn, Rat.den_intCast]

theorem IsCents.add {x y : ℚ} (hx : IsCents x) (hy : IsCents y) : IsCents (x + y) := by
  obtain ⟨n, hn⟩ := isCents_iff.1 hx
  obtain ⟨m, hm⟩ := isCents_iff.1 hy
  exact isCents_iff.2 ⟨n + m, by push_cast; linarith⟩

theorem IsCents.neg {x : ℚ} (hx : IsCents x) : IsCents (-x) := by
  obtain ⟨n, hn⟩ := isCents_iff.1 hx
  exact isCents_iff.2 ⟨-n, by push_cast; linarith⟩

theorem IsCents.sub {x y : ℚ} (hx : IsCents x) (hy : IsCents y) : IsCents (x - y) := by
  rw [sub_eq_add_neg]
  exact hx.add hy.neg

theorem isCents_zero : IsCents 0 := isCents_iff.2 ⟨0, by simp⟩

theorem IsCents.mul_natCast {x : ℚ} (hx : IsCents x) (k : ℕ) : IsCents (x * k) := by
  obtain ⟨n, hn⟩ := isCents_iff.1 hx
  refine isCents_iff.2 ⟨n * k, ?_⟩
  push_cast
  rw [← hn]
  ring

theorem isCents_sum_map {α : Type} {as : List α} {f : α → ℚ} (h : ∀ a ∈ as, IsCents (f a)) :
    IsCents (as.map f).sum := by
  induction as with
  | nil => exact isCents_zero
  | cons a as ih =>
    rw [List.map_cons, List.sum_cons]
    exact (h a List.mem_cons_self).add (ih fun b hb => h b (List.mem_cons_of_mem a hb))

/-- Sizes below this one leave room for two fractional digits, and so do sums of three. -/
def centsLimit : ℚ := 10 ^ 26

theorem IsCents.heldAt {x : ℚ} (h : IsCents x) (hlimit : |x| ≤ 3 * centsLimit) :
    HeldAt 2 x := by
  constructor
  · unfold IsCents at h
    norm_num
    exact h
  · calc |x| * 10 ^ 2 ≤ 3 * centsLimit * 10 ^ 2 :=
        mul_le_mul_of_nonneg_right hlimit (by norm_num)
      _ < Decimal.bound := by norm_num [centsLimit, Decimal.bound]

theorem le_three_centsLimit {x : ℚ} (h : |x| < centsLimit) : |x| ≤ 3 * centsLimit := by
  linarith [abs_nonneg x]

section Sizes

variable {α : Type} {part all : List α}

theorem sum_map_abs_mono (f : α → ℚ) (h : part.Sublist all) :
    (part.map (|f ·|)).sum ≤ (all.map (|f ·|)).sum := by
  refine (h.map _).sum_le_sum ?_
  intro x hx
  obtain ⟨a, -, rfl⟩ := List.mem_map.1 hx
  exact abs_nonneg _

/-- Some of the terms do not sum up to more than the sizes of all. -/
theorem abs_sum_map_le (f : α → ℚ) (h : part.Sublist all) :
    |(part.map f).sum| ≤ (all.map (|f ·|)).sum := by
  have habs := List.le_sum_of_subadditive (fun x : ℚ => |x|) abs_zero.le abs_add_le (part.map f)
  rw [List.map_map] at habs
  exact habs.trans (sum_map_abs_mono f h)

end Sizes

namespace Decimal

/-- **Sums of cents are exact.** -/
theorem add?_of_isCents {a b : Decimal} (hcents : IsCents (a.value + b.value))
    (hlimit : |a.value + b.value| < centsLimit) :
    ∃ d, a.add? b = some d ∧ d.value = a.value + b.value :=
  add?_of_heldAt (by decide) (hcents.heldAt (le_three_centsLimit hlimit))

/-- **Differences of cents are exact.** -/
theorem sub?_of_isCents {a b : Decimal} (hcents : IsCents (a.value - b.value))
    (hlimit : |a.value - b.value| < centsLimit) :
    ∃ d, a.sub? b = some d ∧ d.value = a.value - b.value :=
  sub?_of_heldAt (by decide) (hcents.heldAt (le_three_centsLimit hlimit))

/-- An operation whose exact result is a number of cents gives this number. -/
theorem Gives.exists_of_isCents {result? : Option Decimal} {x : ℚ} (h : Gives result? x)
    (hcents : IsCents x) (hsize : |x| ≤ 3 * centsLimit) : ∃ d, result? = some d ∧ d.value = x := by
  have hlimit : |x| < sizeLimit :=
    hsize.trans_lt (by norm_num [centsLimit, sizeLimit, bound])
  obtain ⟨d, hd⟩ := Option.isSome_iff_exists.1 (h.isSome_iff.2 hlimit)
  have hvalue := h.value hd
  rw [fitted_of_heldAt (by decide) (hcents.heldAt hsize)] at hvalue
  exact ⟨d, hd, hvalue⟩

end Decimal

/-! ### Amounts of money -/

theorem value_roundMoney (d : Decimal) :
    (roundMoney d).value = halfEven (d.value * 100) / 100 := by
  rw [roundMoney, Decimal.value_roundTo, moneyPlaces]
  norm_num

theorem roundMoney_mono {a b : Decimal} (h : a.value ≤ b.value) :
    (roundMoney a).value ≤ (roundMoney b).value := by
  have hround : (halfEven (a.value * 100) : ℚ) ≤ halfEven (b.value * 100) := by
    exact_mod_cast halfEven_mono (mul_le_mul_of_nonneg_right h (by norm_num))
  rw [value_roundMoney, value_roundMoney]
  exact div_le_div_of_nonneg_right hround (by norm_num)

theorem roundMoney_nonneg {d : Decimal} (h : 0 ≤ d.value) : 0 ≤ (roundMoney d).value := by
  have hround : (0 : ℚ) ≤ halfEven (d.value * 100) := by
    exact_mod_cast halfEven_nonneg (by positivity)
  rw [value_roundMoney]
  positivity

theorem roundMoney_nonpos {d : Decimal} (h : d.value ≤ 0) : (roundMoney d).value ≤ 0 := by
  have hround : (halfEven (d.value * 100) : ℚ) ≤ 0 := by
    exact_mod_cast halfEven_nonpos (by linarith)
  rw [value_roundMoney]
  exact div_nonpos_of_nonpos_of_nonneg hround (by norm_num)

theorem abs_roundMoney_le {d : Decimal} (h : |d.value| < centsLimit) :
    |(roundMoney d).value| ≤ centsLimit := by
  have hcast : centsLimit * 100 = ((10 ^ 28 : ℤ) : ℚ) := by norm_num [centsLimit]
  obtain ⟨hlower, hupper⟩ := abs_lt.1 h
  have hmost : halfEven (d.value * 100) ≤ 10 ^ 28 := by
    rw [← halfEven_intCast (10 ^ 28)]
    exact halfEven_mono (by linarith)
  have hleast : -10 ^ 28 ≤ halfEven (d.value * 100) := by
    rw [← halfEven_intCast (10 ^ 28), ← halfEven_neg]
    exact halfEven_mono (by linarith)
  rw [value_roundMoney, abs_le, le_div_iff₀ (by norm_num), div_le_iff₀ (by norm_num), neg_mul,
    hcast]
  exact_mod_cast And.intro hleast hmost

theorem isCents_roundMoney (d : Decimal) : IsCents (roundMoney d).value := by
  refine isCents_iff.2 ⟨halfEven (d.value * 100), ?_⟩
  rw [value_roundMoney]
  field_simp

theorem value_roundMoney_of_isCents {d : Decimal} (h : IsCents d.value) :
    (roundMoney d).value = d.value := by
  obtain ⟨n, hn⟩ := isCents_iff.1 h
  rw [value_roundMoney, hn, halfEven_intCast, ← hn]
  field_simp

end PointOfSale

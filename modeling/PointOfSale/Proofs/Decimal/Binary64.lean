/-
  PointOfSale/Proofs/Decimal/Binary64.lean
  ========================================
  **Decimals that floating point keeps.**  A decimal of at most fifteen digits and 22
  places is sent as the value nearest to it: the roundings on the way to the grid of its
  last digit add up to less than half a unit of that digit.  The shortest digits of this
  value are those of the decimal, so the number that is received is the same
  (`exists_ofBinary64?`).  Whatever value is received, it has at most seventeen digits
  (`isShort_of_ofBinary64?`).
-/
import PointOfSale.Binary64
import PointOfSale.Proofs.Decimal.Fitting
import PointOfSale.Proofs.Decimal.Printed
import PointOfSale.Proofs.Json.Real

namespace PointOfSale

open Binary64 (ofSize? digitsBound exactPlaces pointRows)
open Text (ofDigits)

/-- Digits in front of a point and behind it are positional notation. -/
theorem PositionalForm.exists_rows {front back : List Nat} (hfront : ∀ d ∈ front, d < 10)
    (hback : ∀ d ∈ back, d < 10) (hne : front ≠ []) :
    ∃ f : PositionalForm,
      f.chars = front.map Nat.digitChar ++
        (if (back.map Nat.digitChar).isEmpty then [] else '.' :: back.map Nat.digitChar) ∧
      f.magnitude = ofDigits 10 (front ++ back) ∧ f.scale = back.length := by
  let places? : Option (List (Option Nat)) := if back = [] then none else some (back.map some)
  have hplaces : places?.getD [] = back.map some := by
    unfold places?
    split
    · rename_i hnil
      rw [hnil]
      rfl
    · rfl
  have hpoint : Numeral.pointChars places? =
      (if (back.map Nat.digitChar).isEmpty then [] else '.' :: back.map Nat.digitChar) := by
    cases back with
    | nil => rfl
    | cons d ds =>
      have hsome : places? = some ((d :: ds).map some) := if_neg (List.cons_ne_nil d ds)
      rw [hsome, Numeral.pointChars, List.map_map]
      rfl
  have hdigits : ∀ d, some d ∈ front.map some ++ places?.getD [] → d < 10 := by
    intro d hd
    rw [hplaces, List.mem_append] at hd
    rcases hd with hd | hd
    · exact hfront d (by simpa using hd)
    · exact hback d (by simpa using hd)
  have hfirst : ∃ d, (front.map some ++ places?.getD []).head? = some (some d) := by
    obtain ⟨d, ds, rfl⟩ := List.exists_cons_of_ne_nil hne
    exact ⟨d, rfl⟩
  have hall : ∀ row : List Nat, (row.map some).filterMap id = row := by
    intro row
    rw [List.filterMap_map]
    simp
  refine ⟨⟨front.map some, places?, hdigits, hfirst⟩, ?_, ?_, ?_⟩
  · rw [chars, hpoint, List.map_map]
    rfl
  · rw [magnitude, row, hplaces, ← List.map_append, hall]
  · rw [scale, hplaces, hall]

namespace Decimal

/-! ### Received values -/

section Received

variable {n s : Nat} {x : Binary64}

/-- A value in positional form has its shortest digits around the point. -/
theorem exists_positionalChars (x : Binary64) :
    ∃ f : PositionalForm, x.positionalChars = Numeral.signChars x.negative ++ f.chars ∧
      f.magnitude = (x.shortest .up).digits * 10 ^ (x.shortest .up).exponent.toNat ∧
      f.scale = (-(x.shortest .up).exponent).toNat := by
  unfold Binary64.positionalChars
  generalize x.shortest .up = shortest
  obtain ⟨ds, htext, hne, hlt, hvalue, -⟩ := Text.exists_natural shortest.digits
  obtain ⟨hdigits, hplaces⟩ := Binary64.ofDigits_pointRows ds shortest.exponent
  have hsmall : ∀ d, d ∈ (pointRows ds (ds.length + shortest.exponent)).1 ∨
      d ∈ (pointRows ds (ds.length + shortest.exponent)).2 → d < 10 :=
    fun d hd => Binary64.lt_ten_of_mem_pointRows hlt hd
  have hnil : (pointRows ds (ds.length + shortest.exponent)).1 ≠ [] :=
    Binary64.pointRows_fst_ne_nil hne
  obtain ⟨f, hchars, hmagnitude, hscale⟩ :=
    PositionalForm.exists_rows (fun d hd => hsmall d (.inl hd)) (fun d hd => hsmall d (.inr hd)) hnil
  refine ⟨f, ?_, by rw [hmagnitude, hdigits, hvalue], by rw [hscale, hplaces]⟩
  simp only [htext, List.length_map, Binary64.placePoint_map]
  rw [hchars, List.append_assoc]
  rfl

/-- **A value that stands for a decimal of few digits is received as this decimal.** -/
theorem exists_ofBinary64? (hn : n < digitsBound) (hs : s ≤ exactPlaces)
    (h : ofSize? (n / 10 ^ s) = some x) (negative : Bool) :
    ∃ d, ofBinary64? (x.withSign negative) = some d ∧
      d.value = signed negative n / 10 ^ s := by
  obtain ⟨k, z, hshortest, hk⟩ := Binary64.shortest_of_ofSize? .up hn hs h
  obtain ⟨f, hchars, hmagnitude, hscale⟩ := exists_positionalChars (x.withSign negative)
  rw [Binary64.shortest_withSign, hshortest] at hmagnitude hscale
  dsimp only at hmagnitude hscale
  have hle : f.magnitude ≤ n := by
    rw [hmagnitude, ← hk]
    exact Nat.mul_le_mul_left k (Nat.pow_le_pow_right (by norm_num) (by omega))
  have hfits : f.magnitude < bound := lt_of_le_of_lt hle (hn.trans (by decide))
  have hroom : f.scale ≤ maxScale := by
    unfold exactPlaces at hs
    unfold maxScale
    omega
  refine ⟨_, by rw [ofBinary64?, hchars, ofPositional?_eq, f.toDecimal?_numeral _ hroom hfits], ?_⟩
  rw [value_plainZero, value_mk, signed_cast, signed_cast, mul_div_assoc, mul_div_assoc]
  congr 1
  rw [hmagnitude, hscale, ← hk]
  rcases le_total s z with hsz | hzs
  · obtain ⟨count, rfl⟩ := Nat.exists_eq_add_of_le hsz
    have hcount : (((s + count : Nat) : Int) - s).toNat = count := by omega
    have hnone : (-(((s + count : Nat) : Int) - s)).toNat = 0 := by omega
    rw [hcount, hnone, pow_add]
    push_cast
    field_simp
  · obtain ⟨places, rfl⟩ := Nat.exists_eq_add_of_le hzs
    have hnone : ((z : Int) - (z + places : Nat)).toNat = 0 := by omega
    have hplaces : (-((z : Int) - (z + places : Nat))).toNat = places := by omega
    rw [hnone, hplaces, pow_add]
    push_cast
    field_simp

/-- A decimal of at most seventeen digits, but for zeros at its end. -/
def IsShort (d : Decimal) : Prop :=
  ∃ k : Nat, ∃ e : Int, k < 10 ^ 17 ∧ |d.value| = k * 10 ^ e

/-- Where no zero is at its end, the digits of a decimal are counted as they stand. -/
theorem isShort_iff {d : Decimal} (hlast : d.magnitude % 10 ≠ 0) :
    d.IsShort ↔ d.magnitude < 10 ^ 17 := by
  constructor
  · rintro ⟨k, e, hk, hvalue⟩
    rw [abs_value, div_eq_iff (by positivity), mul_assoc, ← zpow_natCast,
      ← zpow_add₀ (by norm_num)] at hvalue
    rcases Int.lt_or_le 0 (e + d.scale) with hpos | hneg
    · obtain ⟨count, hcount⟩ := Int.eq_succ_of_zero_lt hpos
      rw [hcount] at hvalue
      have hsame : d.magnitude = k * 10 ^ count * 10 := by
        rw [mul_assoc, ← pow_succ]
        exact_mod_cast hvalue
      omega
    · obtain ⟨count, hcount⟩ := Int.exists_eq_neg_ofNat hneg
      rw [hcount, zpow_neg, zpow_natCast, eq_mul_inv_iff_mul_eq₀ (by positivity)] at hvalue
      have hsame : d.magnitude * 10 ^ count = k := by exact_mod_cast hvalue
      have hle : d.magnitude ≤ d.magnitude * 10 ^ count :=
        Nat.le_mul_of_pos_right _ (by positivity)
      omega
  · intro hlt
    refine ⟨d.magnitude, -d.scale, hlt, ?_⟩
    rw [abs_value, zpow_neg, zpow_natCast, div_eq_mul_inv]

/-- What is read of a numeral are as many of its digits as fit. -/
theorem exists_takePlaces {n : Numeral} {d : Decimal} (h : n.toDecimal? = some d) :
    ofDigits 10 n.whole < bound ∧ ∃ size scale,
      Numeral.takePlaces (ofDigits 10 n.whole) 0 n.fractional = some (size, scale) ∧
        |d.value| = size / 10 ^ scale := by
  unfold Numeral.toDecimal? at h
  dsimp only at h
  split at h
  · rename_i hwhole
    split at h
    · rename_i size scale hplaces
      obtain ⟨e, he, rfl⟩ := Option.map_eq_some_iff.1 h
      obtain ⟨hm, hs, rfl⟩ := ofParts?_eq_some_iff.1 he
      exact ⟨hwhole, size, scale, hplaces, by rw [value_plainZero, abs_value]⟩
    · cases h
  · cases h

/-- **No more than seventeen digits are received.** -/
theorem isShort_of_ofBinary64? {d : Decimal} (h : ofBinary64? x = some d) : d.IsShort := by
  obtain ⟨f, hchars, hmagnitude, hscale⟩ := exists_positionalChars x
  have hshort := Binary64.digits_shortest_lt .up x
  generalize x.shortest .up = shortest at hmagnitude hscale hshort
  rw [ofBinary64?, hchars, ofPositional?_eq] at h
  obtain ⟨hwhole, size, scale, hplaces, hvalue⟩ := exists_takePlaces h
  rcases le_total 0 shortest.exponent with hexponent | hexponent
  · -- all digits are in front of the point
    obtain ⟨count, hcount⟩ := Int.eq_ofNat_of_zero_le hexponent
    rw [hcount] at hmagnitude hscale
    have hnone : f.scale = 0 := by omega
    have hfits : f.magnitude < bound := by
      rw [PositionalForm.scale, List.length_eq_zero_iff] at hnone
      rwa [f.magnitude_eq, hnone]
    rw [f.toDecimal?_numeral _ (hnone.trans_le (Nat.zero_le _)) hfits] at h
    refine ⟨shortest.digits, count, hshort, ?_⟩
    rw [← Option.some.inj h, value_plainZero, abs_value]
    simp [hnone, hmagnitude]
  · have hnone : shortest.exponent.toNat = 0 := by omega
    have hsize : size ≤ f.magnitude + 1 := by
      rw [f.magnitude_eq]
      exact Numeral.takePlaces_le hplaces
    rw [hmagnitude, hnone, pow_zero, mul_one] at hsize
    rcases Nat.lt_or_ge size (10 ^ 17) with hlt | hge
    · refine ⟨size, -scale, hlt, ?_⟩
      rw [hvalue, zpow_neg, zpow_natCast, div_eq_mul_inv]
    · -- rounded up to the next power of ten
      obtain rfl : size = 10 ^ 17 := by omega
      refine ⟨1, 17 - scale, by norm_num, ?_⟩
      rw [hvalue, zpow_sub₀ (by norm_num), zpow_natCast, Nat.cast_one, one_mul]
      norm_num

end Received

/-! ### Sent values -/

/-- A decimal of few digits, none of which is too far behind the point. -/
structure IsBrief (d : Decimal) : Prop where
  magnitude_lt : d.magnitude < digitsBound
  scale_le : d.scale ≤ exactPlaces

instance (d : Decimal) : Decidable d.IsBrief :=
  decidable_of_iff (d.magnitude < digitsBound ∧ d.scale ≤ exactPlaces)
    ⟨fun h => ⟨h.1, h.2⟩, fun h => ⟨h.1, h.2⟩⟩

/-- A number that is not tiny has all 53 binary digits. -/
theorem two_pow_le_steps {q : ℚ} (h : 1 / 10 ^ 23 ≤ q) : 2 ^ 52 ≤ q * 2 ^ Binary64.stepBits := by
  have hpow : (2 : ℚ) ^ 130 ≤ 2 ^ Binary64.stepBits :=
    pow_le_pow_right₀ (by norm_num) (by decide)
  calc (2 : ℚ) ^ 52 ≤ 1 / 10 ^ 23 * 2 ^ 130 := by norm_num
    _ ≤ q * 2 ^ Binary64.stepBits := mul_le_mul h hpow (by positivity) (le_trans (by positivity) h)

section Grid

variable {unit : ℚ}

/-- A number that is not tiny is missed by at most one part in `2 ^ 53`, counted in units of
    a last digit. -/
theorem exists_ofSize?_onGrid (hone : 1 ≤ unit) (hle : unit ≤ 10 ^ 22) {q : ℚ}
    (hlow : 1 / 2 ≤ q * unit) (hhigh : q ≤ 10 ^ 16) :
    ∃ x, ofSize? q = some x ∧ |x.size * unit - q * unit| ≤ q * unit / 2 ^ 53 := by
  have hunit : 0 < unit := by linarith
  have hq : 0 ≤ q := nonneg_of_mul_nonneg_left (le_trans (by norm_num) hlow) hunit
  have hgrid : q * unit ≤ q * 10 ^ 22 := mul_le_mul_of_nonneg_left hle hq
  obtain ⟨x, hx, hmissed⟩ := Binary64.exists_ofSize?_near
    (two_pow_le_steps (by linarith)) (lt_of_le_of_lt hhigh (by norm_num))
  refine ⟨x, hx, ?_⟩
  rw [← sub_mul, abs_mul, abs_of_pos hunit, mul_div_right_comm]
  exact mul_le_mul_of_nonneg_right hmissed hunit.le

/-- **The roundings of a number of few digits add up to less than half a unit of its last
    digit**: that of the fraction, that of its sum with the integer part, and that of the
    product with the unit. -/
theorem exists_roundings (hone : 1 ≤ unit) (hle : unit ≤ 10 ^ 22) {front back : Nat}
    (hback : 0 < back) (hm : front * unit + back < 10 ^ 15) :
    ∃ part sum product, ofSize? (back / unit) = some part ∧ part.isZero = false ∧
      ofSize? (front + part.size) = some sum ∧ ofSize? (sum.size * unit) = some product ∧
      |product.size - (front * unit + back)| < 1 / 2 := by
  have hunit : 0 < unit := by linarith
  have hfront : (0 : ℚ) ≤ front := Nat.cast_nonneg front
  have hfrontle : (front : ℚ) ≤ front * unit := le_mul_of_one_le_right hfront hone
  have hbackge : (1 : ℚ) ≤ back := by exact_mod_cast hback
  -- the fraction
  have hbackle : (back : ℚ) / unit ≤ back := div_le_self (by linarith) hone
  have hquotient : (back : ℚ) / unit * unit = back := div_mul_cancel₀ _ hunit.ne'
  obtain ⟨part, hpart, hpartnear⟩ :=
    exists_ofSize?_onGrid hone hle (q := back / unit) (by linarith) (by linarith)
  rw [hquotient, abs_le] at hpartnear
  have hsome : part.isZero = false := by
    rw [Bool.eq_false_iff, ne_eq, Binary64.isZero_iff]
    intro hzero
    rw [hzero] at hpartnear
    linarith
  -- the fraction behind the integer part
  have hpartle : part.size ≤ part.size * unit := le_mul_of_one_le_right part.size_nonneg hone
  have hsplit : (front + part.size) * unit = front * unit + part.size * unit := add_mul _ _ _
  obtain ⟨sum, hsum, hsumnear⟩ :=
    exists_ofSize?_onGrid hone hle (q := front + part.size) (by linarith) (by linarith)
  rw [hsplit, abs_le] at hsumnear
  -- the number in units of its last digit
  obtain ⟨product, hproduct, hproductnear⟩ := exists_ofSize?_onGrid le_rfl (by norm_num)
    (q := sum.size * unit) (by linarith) (by linarith)
  rw [mul_one, mul_one, abs_le] at hproductnear
  refine ⟨part, sum, product, hpart, hsome, hsum, hproduct, ?_⟩
  rw [abs_lt]
  constructor <;> linarith

end Grid

/-- **A decimal of few digits is sent as the value nearest to it.** -/
theorem IsBrief.sizeToBinary64?_eq {d : Decimal} (h : d.IsBrief) :
    d.sizeToBinary64? = ofSize? (d.magnitude / 10 ^ d.scale) := by
  have hm := h.magnitude_lt
  unfold digitsBound at hm
  have hone : (1 : ℚ) ≤ 10 ^ d.scale := one_le_pow₀ (by norm_num)
  have hsplit : (d.magnitude : ℚ) =
      (d.magnitude / 10 ^ d.scale : ℕ) * 10 ^ d.scale + (d.magnitude % 10 ^ d.scale : ℕ) := by
    exact_mod_cast (Nat.div_add_mod' d.magnitude (10 ^ d.scale)).symm
  have hfrontlt : d.magnitude / 10 ^ d.scale < 2 ^ 53 := by
    have hle := Nat.div_le_self d.magnitude (10 ^ d.scale)
    omega
  have hbacklt : d.magnitude % 10 ^ d.scale < 2 ^ 53 := by
    have hle := Nat.mod_le d.magnitude (10 ^ d.scale)
    omega
  obtain ⟨whole, hwhole, hwholesize⟩ := Binary64.exists_ofSize?_nat hfrontlt
  obtain ⟨rest, hrest, hrestsize⟩ := Binary64.exists_ofSize?_nat hbacklt
  obtain ⟨ten, hten, htensize⟩ := Binary64.exists_tenTo? h.scale_le
  have htennonzero : ten.size ≠ 0 := by
    rw [htensize]
    positivity
  rw [← Binary64.nearest?_one] at hwhole hrest
  unfold sizeToBinary64?
  dsimp only
  rw [hwhole, Option.bind_eq_bind, Option.bind_some]
  by_cases hscale : d.scale = 0
  · rw [hscale, pow_zero, Nat.div_one] at hwhole
    rw [if_pos hscale, hscale, pow_zero, div_one, ← Binary64.nearest?_one, hwhole]
    rfl
  rw [if_neg hscale, hten, Option.bind_some, hrest, Option.bind_some,
    Binary64.div?_eq rest htennonzero, hrestsize, htensize]
  rcases Nat.eq_zero_or_pos (d.magnitude % 10 ^ d.scale) with hzero | hpos
  · -- the decimal is whole
    obtain ⟨part, hpart, hpartsize⟩ := Binary64.exists_ofSize?_nat (by norm_num : 0 < 2 ^ 53)
    have hnone : part.isZero = true := Binary64.isZero_iff.2 (by rw [hpartsize, Nat.cast_zero])
    rw [hzero, Nat.cast_zero, add_zero] at hsplit
    rw [hzero, Nat.cast_zero, zero_div, ← Nat.cast_zero, hpart, Option.bind_some, if_pos hnone,
      hsplit, mul_div_cancel_right₀ _ (by positivity), ← Binary64.nearest?_one, hwhole]
    rfl
  · have hmcast : (d.magnitude : ℚ) < 10 ^ 15 := by exact_mod_cast hm
    have hunit : (10 : ℚ) ^ d.scale ≤ 10 ^ 22 := pow_le_pow_right₀ (by norm_num) h.scale_le
    obtain ⟨part, sum, product, hpart, hsome, hsum, hproduct, hnear⟩ :=
      exists_roundings hone hunit hpos (hsplit ▸ hmcast)
    rw [← hsplit] at hnear
    obtain ⟨count, hcount, hcountsize⟩ :=
      Binary64.exists_ofSize?_nat (by omega : d.magnitude < 2 ^ 53)
    rw [hpart, Option.bind_some, hsome, if_neg Bool.false_ne_true, Binary64.add?_eq, hwholesize,
      hsum, Option.bind_some, Binary64.mul?_eq, htensize, hproduct, Option.bind_some,
      Binary64.round?_eq hnear, hcount, Option.bind_some, Binary64.div?_eq count htennonzero,
      hcountsize, htensize]

/-- Stated of the function itself: at a decimal, unfolding would try to compute its size. -/
theorem toBinary64_def : toBinary64 = fun d =>
    match d.sizeToBinary64? with
    | some x => x.withSign d.negative
    | none => Binary64.zero := by
  delta toBinary64
  exact Eq.refl _

theorem IsBrief.exists_toBinary64 {d : Decimal} (h : d.IsBrief) :
    ∃ x, ofSize? (d.magnitude / 10 ^ d.scale) = some x ∧
      d.toBinary64 = x.withSign d.negative := by
  have hm := h.magnitude_lt
  unfold digitsBound at hm
  have hone : (1 : ℚ) ≤ 10 ^ d.scale := one_le_pow₀ (by norm_num)
  have hmcast : (d.magnitude : ℚ) < 10 ^ 15 := by exact_mod_cast hm
  have hle : (d.magnitude : ℚ) / 10 ^ d.scale ≤ d.magnitude := div_le_self (by positivity) hone
  have hlt : (d.magnitude : ℚ) / 10 ^ d.scale < 2 ^ 100 :=
    lt_trans (lt_of_le_of_lt hle hmcast) (by norm_num)
  obtain ⟨x, hx⟩ := Binary64.exists_ofSize? (by positivity)
    (Binary64.binade_lt (by positivity) hlt)
  refine ⟨x, hx, ?_⟩
  have hsize : d.sizeToBinary64? = some x := h.sizeToBinary64?_eq.trans hx
  rw [toBinary64_def]
  dsimp only
  rw [hsize]

end Decimal

end PointOfSale

/-
  PointOfSale/Proofs/Order/Totals.lean
  ====================================
  **The totals of an order.**  Every sum of a summary is the exact one fitted, so what
  holds of the exact sums carries over by the order that fitting keeps: collected tax
  stays below the taxable total and this below the total amount
  (`ofLines_of_fairlyTaxed`), and as long as whole numbers around the lines add up to
  less than the bound of a coefficient the summary is there (`exists_ofLines`).

  A net discount has a negative price before tax and so a negative tax, under a price of
  zero: collected tax is not below zero where no line has one of these.
-/
import Mathlib.Algebra.Order.Floor.Semiring
import PointOfSale.Order.Settlement
import PointOfSale.Proofs.Order.Execution
import PointOfSale.Proofs.Order.Request
import PointOfSale.Proofs.Pricing.Figures
import PointOfSale.Proofs.Pricing.Pairing

namespace PointOfSale

/-! ### Lines that the desk hands back

A line gets its figures from a quote alone, when it is created as when it is edited: its
price is never negative, and under a rate that is not negative its tax is at most its
price. -/

/-- A line that creating an order at a desk gives, or editing one. -/
inductive OrderLine.Issued (desk : Desk) (store : ItemStore) (line : OrderLine) : Prop where
  | created {s : Selection} {fresh : Uuid} {now : Timestamp} {after : ItemStore}
      (h : (desk.create s fresh now).run store = .ok (line, after))
  | edited {old : OrderLine} {choices : List Choice} {quantity : UInt32} {now : Timestamp}
      {after : ItemStore}
      (h : (desk.update old choices quantity now).run store = .ok (line, after))

/-- A line that was issued under a tax rate that is not negative. -/
def OrderLine.FairlyTaxed (line : OrderLine) : Prop :=
  ∃ desk store item, line.Issued desk store ∧ store.get? line.itemId = some item ∧
    0 ≤ (item.taxRateOr desk.defaultTaxRate).value

namespace OrderLine

variable {desk : Desk} {store : ItemStore} {line : OrderLine}

/-- The price and the tax of an issued line are those of a quote for its item. -/
theorem Issued.exists_quote (h : line.Issued desk store) :
    ∃ item choices q, store.get? line.itemId = some item ∧ desk.price item choices = .ok q ∧
      line.price = q.price ∧ line.tax = q.tax := by
  cases h with
  | created h =>
    obtain ⟨item, stock, hitem, hevaluate, -⟩ := Call.run_eq_ok_iff.1 h
    obtain ⟨q, o, hq, -, rfl, -⟩ := Desk.create_eq_ok_iff.1 hevaluate
    have hid : store.get? item.id = some item := by rw [ItemStore.id_of_get? hitem, hitem]
    exact ⟨item, _, q, hid, hq, rfl, rfl⟩
  | edited h =>
    obtain ⟨item, stock, hitem, hevaluate, -⟩ := Call.run_eq_ok_iff.1 h
    obtain ⟨q, returned, o, hq, -, rfl, -, -⟩ := Desk.update_eq_ok_iff.1 hevaluate
    exact ⟨item, _, q, hitem, hq, rfl, rfl⟩

theorem Issued.price_nonneg (h : line.Issued desk store) : 0 ≤ line.price.value := by
  obtain ⟨item, choices, q, -, hq, hprice, -⟩ := h.exists_quote
  obtain ⟨_, preTax, -, -, hpreTax⟩ := Quote.exists_preTax hq
  rw [hprice]
  exact Quote.price_nonneg_of_preTax hpreTax

theorem FairlyTaxed.price_nonneg (h : line.FairlyTaxed) : 0 ≤ line.price.value := by
  obtain ⟨_, _, _, hissued, -, -⟩ := h
  exact hissued.price_nonneg

theorem FairlyTaxed.tax_le_price (h : line.FairlyTaxed) : line.tax.value ≤ line.price.value := by
  obtain ⟨desk, store, item, hissued, hitem, hrate⟩ := h
  obtain ⟨quoted, choices, q, hquoted, hq, hprice, htax⟩ := hissued.exists_quote
  obtain rfl : item = quoted := Option.some.inj (hitem.symm.trans hquoted)
  obtain ⟨_, preTax, -, -, hpreTax⟩ := Quote.exists_preTax hq
  rw [hprice, htax]
  exact (Quote.consistent_ofPreTax hrate hpreTax).tax_le_price

end OrderLine

/-! ### Sums and products that are not checked beforehand -/

namespace Overflow

variable {o : Overflow} {result? : Option Decimal} {x : ℚ} {d : Decimal}

theorem orElse_eq_ok_iff : o.orElse result? = .ok d ↔ result? = some d := by
  cases result? <;> simp [orElse]

/-- There is a result exactly below the size limit. -/
theorem exists_orElse_iff (h : Decimal.Gives result? x) :
    (∃ d, o.orElse result? = .ok d) ↔ |x| < Decimal.sizeLimit := by
  rw [← h.isSome_iff, Option.isSome_iff_exists]
  simp only [orElse_eq_ok_iff]

theorem value_of_orElse (h : Decimal.Gives result? x) (hd : o.orElse result? = .ok d) :
    d.value = Decimal.fitted x :=
  h.value (orElse_eq_ok_iff.1 hd)

theorem exists_value_orElse (h : Decimal.Gives result? x) (hx : |x| < Decimal.sizeLimit) :
    ∃ d, o.orElse result? = .ok d ∧ d.value = Decimal.fitted x := by
  obtain ⟨d, hd⟩ := (exists_orElse_iff h).2 hx
  exact ⟨d, hd, value_of_orElse h hd⟩

/-- A number of cents is met. -/
theorem exists_orElse_of_isCents (h : Decimal.Gives result? x) (hcents : IsCents x)
    (hsize : |x| ≤ 3 * centsLimit) : ∃ d, o.orElse result? = .ok d ∧ d.value = x := by
  obtain ⟨d, hd, hvalue⟩ := h.exists_of_isCents hcents hsize
  exact ⟨d, orElse_eq_ok_iff.2 hd, hvalue⟩

end Overflow

variable {a b d : Decimal}

theorem value_plus (h : plus a b = .ok d) : d.value = Decimal.fitted (a.value + b.value) :=
  Overflow.value_of_orElse (Decimal.gives_add a b) h

theorem exists_plus (h : |a.value + b.value| < Decimal.sizeLimit) :
    ∃ d, plus a b = .ok d ∧ d.value = Decimal.fitted (a.value + b.value) :=
  Overflow.exists_value_orElse (Decimal.gives_add a b) h

namespace Decimal

/-- Whole numbers below the bound are limits that fitting respects. -/
theorem abs_fitted_le {x : ℚ} {n : ℕ} (hn : n < bound) (h : |x| ≤ n) : |fitted x| ≤ n := by
  rw [abs_le] at h ⊢
  have hupper := fitted_mono h.2
  have hlower := fitted_mono h.1
  rw [fitted_neg] at hlower
  rw [fitted_natCast hn] at hupper hlower
  exact ⟨hlower, hupper⟩

theorem natCast_lt_sizeLimit {n : ℕ} (hn : n < bound) : (n : ℚ) < sizeLimit := by
  have hcast : (n : ℚ) + 1 ≤ bound := by exact_mod_cast hn
  unfold sizeLimit
  linarith

theorem lt_bound_of_lt_sizeLimit {n : ℕ} (h : (n : ℚ) < sizeLimit) : n < bound := by
  unfold sizeLimit at h
  have hcast : (n : ℚ) < bound := by linarith
  exact_mod_cast hcast

theorem natCast_le_fitted {x : ℚ} {n : ℕ} (hn : n < bound) (h : (n : ℚ) ≤ x) :
    (n : ℚ) ≤ fitted x := by
  simpa [fitted_natCast hn] using fitted_mono h

end Decimal

/-! ### The totals of a line -/

namespace OrderLine

/-- The price of all pieces of a line. -/
def exactTotal (l : OrderLine) : ℚ := l.price.value * l.quantity.toNat

def exactTax (l : OrderLine) : ℚ := l.tax.value * l.quantity.toNat

theorem gives_total (l : OrderLine) :
    Decimal.Gives (l.price.mul? (Decimal.ofUInt32 l.quantity)) l.exactTotal := by
  have h := Decimal.gives_mul l.price (Decimal.ofUInt32 l.quantity)
  rwa [Decimal.value_ofUInt32] at h

theorem gives_totalTax (l : OrderLine) :
    Decimal.Gives (l.tax.mul? (Decimal.ofUInt32 l.quantity)) l.exactTax := by
  have h := Decimal.gives_mul l.tax (Decimal.ofUInt32 l.quantity)
  rwa [Decimal.value_ofUInt32] at h

variable {l : OrderLine}

theorem exists_total_iff : (∃ d, l.total = .ok d) ↔ |l.exactTotal| < Decimal.sizeLimit :=
  Overflow.exists_orElse_iff l.gives_total

theorem exists_totalTax_iff : (∃ d, l.totalTax = .ok d) ↔ |l.exactTax| < Decimal.sizeLimit :=
  Overflow.exists_orElse_iff l.gives_totalTax

theorem value_total {t : Decimal} (h : l.total = .ok t) : t.value = Decimal.fitted l.exactTotal :=
  Overflow.value_of_orElse l.gives_total h

theorem value_totalTax {t : Decimal} (h : l.totalTax = .ok t) :
    t.value = Decimal.fitted l.exactTax :=
  Overflow.value_of_orElse l.gives_totalTax h

theorem exactTotal_nonneg (h : 0 ≤ l.price.value) : 0 ≤ l.exactTotal :=
  mul_nonneg h (Nat.cast_nonneg _)

theorem exactTax_nonneg (h : 0 ≤ l.tax.value) : 0 ≤ l.exactTax :=
  mul_nonneg h (Nat.cast_nonneg _)

theorem exactTax_le_exactTotal (h : l.tax.value ≤ l.price.value) : l.exactTax ≤ l.exactTotal :=
  mul_le_mul_of_nonneg_right h (Nat.cast_nonneg _)

end OrderLine

/-! ### One more line -/

namespace Summary

open Decimal (fitted sizeLimit bound)

variable {s next : Summary} {l : OrderLine} {lines : List OrderLine}

/-- A line counts for the untaxed total, or for the taxable total and the tax. -/
theorem addLine_eq_ok (h : s.addLine l = .ok next) :
    (l.tax.isZero = true ∧ ∃ t n, l.total = .ok t ∧ plus s.nonTaxable t = .ok n ∧
      next = { s with nonTaxable := n }) ∨
    (l.tax.isZero = false ∧ ∃ t x u c, l.total = .ok t ∧ plus s.taxable t = .ok x ∧
      l.totalTax = .ok u ∧ plus s.collectedTax u = .ok c ∧
      next = { s with taxable := x, collectedTax := c }) := by
  unfold addLine at h
  split at h
  · rename_i hzero
    simp only [bind_eq_ok_iff, pure_eq_ok_iff] at h
    obtain ⟨t, ht, n, hn, rfl⟩ := h
    exact Or.inl ⟨hzero, t, n, ht, hn, rfl⟩
  · rename_i hzero
    simp only [bind_eq_ok_iff, pure_eq_ok_iff] at h
    obtain ⟨t, ht, x, hx, u, hu, c, hc, rfl⟩ := h
    exact Or.inr ⟨by simpa using hzero, t, x, u, c, ht, hx, hu, hc, rfl⟩

theorem ofLines_eq_ok_iff :
    ofLines lines = .ok next ↔
      ∃ s total, lines.foldlM addLine {} = .ok s ∧ plus s.nonTaxable s.taxable = .ok total ∧
        next = { s with total } := by
  simp only [ofLines, bind_eq_ok_iff, pure_eq_ok_iff]
  constructor
  · rintro ⟨s, hs, total, htotal, rfl⟩
    exact ⟨s, total, hs, htotal, rfl⟩
  · rintro ⟨s, total, hs, htotal, rfl⟩
    exact ⟨s, hs, total, htotal, rfl⟩

/-- What a step with each line of an order keeps, the whole order keeps. -/
theorem foldlM_addLine_induction (keeps : Summary → Prop)
    (hstep : ∀ s, ∀ l ∈ lines, ∀ next, keeps s → s.addLine l = .ok next → keeps next)
    (hstart : keeps s) (h : lines.foldlM addLine s = .ok next) : keeps next := by
  induction lines generalizing s with
  | nil =>
    have heq : s = next := by simpa using h
    exact heq ▸ hstart
  | cons l rest ih =>
    rw [List.foldlM_cons, bind_eq_ok_iff] at h
    obtain ⟨middle, hmiddle, hrest⟩ := h
    refine ih ?_ (hstep s l List.mem_cons_self middle hstart hmiddle) hrest
    intro s l hl
    exact hstep s l (List.mem_cons_of_mem _ hl)

/-! ### What the totals keep -/

/-- The parts of a total amount are not negative. -/
structure Charged (s : Summary) : Prop where
  nonTaxable : 0 ≤ s.nonTaxable.value
  taxable : 0 ≤ s.taxable.value

theorem charged_addLine (h : Charged s) (hl : 0 ≤ l.price.value) (hok : s.addLine l = .ok next) :
    Charged next := by
  have htotal : ∀ t, l.total = .ok t → 0 ≤ t.value := by
    intro t ht
    rw [OrderLine.value_total ht]
    exact Decimal.fitted_nonneg (OrderLine.exactTotal_nonneg hl)
  rcases addLine_eq_ok hok with ⟨-, t, n, ht, hn, rfl⟩ | ⟨-, t, x, u, c, ht, hx, -, -, rfl⟩
  · refine ⟨?_, h.taxable⟩
    rw [value_plus hn]
    exact Decimal.fitted_nonneg (add_nonneg h.nonTaxable (htotal t ht))
  · refine ⟨h.nonTaxable, ?_⟩
    rw [value_plus hx]
    exact Decimal.fitted_nonneg (add_nonneg h.taxable (htotal t ht))

theorem collectedTax_le_addLine (h : s.collectedTax.value ≤ s.taxable.value)
    (hl : l.tax.value ≤ l.price.value) (hok : s.addLine l = .ok next) :
    next.collectedTax.value ≤ next.taxable.value := by
  rcases addLine_eq_ok hok with ⟨-, t, n, -, -, rfl⟩ | ⟨-, t, x, u, c, ht, hx, hu, hc, rfl⟩
  · exact h
  · -- the tax of the line is at most its total, and both sums keep the order
    have hline : u.value ≤ t.value := by
      rw [OrderLine.value_totalTax hu, OrderLine.value_total ht]
      exact Decimal.fitted_mono (OrderLine.exactTax_le_exactTotal hl)
    rw [value_plus hc, value_plus hx]
    exact Decimal.fitted_mono (add_le_add h hline)

theorem collectedTax_nonneg_addLine (h : 0 ≤ s.collectedTax.value) (hl : 0 ≤ l.tax.value)
    (hok : s.addLine l = .ok next) : 0 ≤ next.collectedTax.value := by
  rcases addLine_eq_ok hok with ⟨-, t, n, -, -, rfl⟩ | ⟨-, t, x, u, c, -, -, hu, hc, rfl⟩
  · exact h
  · rw [value_plus hc, OrderLine.value_totalTax hu]
    exact Decimal.fitted_nonneg
      (add_nonneg h (Decimal.fitted_nonneg (OrderLine.exactTax_nonneg hl)))

theorem charged_of_prices (hlines : ∀ l ∈ lines, 0 ≤ l.price.value)
    (h : lines.foldlM addLine {} = .ok s) : Charged s :=
  foldlM_addLine_induction Charged
    (fun _ l hl _ hkeeps hok => charged_addLine hkeeps (hlines l hl) hok)
    ⟨by simp, by simp⟩ h

theorem collectedTax_le_of_taxes (hlines : ∀ l ∈ lines, l.tax.value ≤ l.price.value)
    (h : lines.foldlM addLine {} = .ok s) : s.collectedTax.value ≤ s.taxable.value :=
  foldlM_addLine_induction (fun s => s.collectedTax.value ≤ s.taxable.value)
    (fun _ l hl _ hkeeps hok => collectedTax_le_addLine hkeeps (hlines l hl) hok)
    le_rfl h

theorem collectedTax_nonneg_of_taxes (hlines : ∀ l ∈ lines, 0 ≤ l.tax.value)
    (h : lines.foldlM addLine {} = .ok s) : 0 ≤ s.collectedTax.value :=
  foldlM_addLine_induction (fun s => 0 ≤ s.collectedTax.value)
    (fun _ l hl _ hkeeps hok => collectedTax_nonneg_addLine hkeeps (hlines l hl) hok)
    (by simp) h

/-- The total amount of lines with prices that are not negative. -/
theorem total_nonneg (hlines : ∀ l ∈ lines, 0 ≤ l.price.value) (h : ofLines lines = .ok s) :
    0 ≤ s.total.value := by
  obtain ⟨summed, total, hsummed, htotal, rfl⟩ := ofLines_eq_ok_iff.1 h
  have hcharged := charged_of_prices hlines hsummed
  show 0 ≤ total.value
  rw [value_plus htotal]
  exact Decimal.fitted_nonneg (add_nonneg hcharged.nonTaxable hcharged.taxable)

/-! ### When the summary is there -/

/-- The totals are within whole numbers that add up to the given one. -/
def Within (total : ℕ) (s : Summary) : Prop :=
  ∃ untaxed taxed : ℕ, untaxed + taxed = total ∧ |s.nonTaxable.value| ≤ untaxed ∧
    |s.taxable.value| ≤ taxed ∧ |s.collectedTax.value| ≤ taxed

theorem exists_plus_within {x y : Decimal} {m n : ℕ} (hx : |x.value| ≤ m) (hy : |y.value| ≤ n)
    (h : m + n < bound) : ∃ d, plus x y = .ok d ∧ |d.value| ≤ (m + n : ℕ) := by
  have hsum : |x.value + y.value| ≤ (m + n : ℕ) := by
    push_cast
    exact (abs_add_le _ _).trans (add_le_add hx hy)
  obtain ⟨d, hd, hvalue⟩ := exists_plus (hsum.trans_lt (Decimal.natCast_lt_sizeLimit h))
  refine ⟨d, hd, ?_⟩
  rw [hvalue]
  exact Decimal.abs_fitted_le h hsum

theorem Within.addLine {total weight : ℕ} (h : Within total s) (hprice : |l.exactTotal| ≤ weight)
    (htax : |l.exactTax| ≤ weight) (hbound : total + weight < bound) :
    ∃ next, s.addLine l = .ok next ∧ Within (total + weight) next := by
  obtain ⟨untaxed, taxed, rfl, hnonTaxable, htaxable, hcollected⟩ := h
  have hweight : weight < bound := by omega
  have hlimit := Decimal.natCast_lt_sizeLimit hweight
  obtain ⟨t, ht⟩ := OrderLine.exists_total_iff.2 (hprice.trans_lt hlimit)
  obtain ⟨u, hu⟩ := OrderLine.exists_totalTax_iff.2 (htax.trans_lt hlimit)
  have htotal : |t.value| ≤ weight := by
    rw [OrderLine.value_total ht]
    exact Decimal.abs_fitted_le hweight hprice
  have htotalTax : |u.value| ≤ weight := by
    rw [OrderLine.value_totalTax hu]
    exact Decimal.abs_fitted_le hweight htax
  cases hzero : l.tax.isZero with
  | true =>
    obtain ⟨n, hn, hwithin⟩ := exists_plus_within hnonTaxable htotal (by omega)
    refine ⟨{ s with nonTaxable := n }, ?_, untaxed + weight, taxed, by omega, hwithin, htaxable,
      hcollected⟩
    simp [Summary.addLine, hzero, ht, hn]
  | false =>
    obtain ⟨x, hx, hxwithin⟩ := exists_plus_within htaxable htotal (by omega)
    obtain ⟨c, hc, hcwithin⟩ := exists_plus_within hcollected htotalTax (by omega)
    refine ⟨{ s with taxable := x, collectedTax := c }, ?_, untaxed, taxed + weight, by omega,
      hnonTaxable, hxwithin, hcwithin⟩
    simp [Summary.addLine, hzero, ht, hu, hx, hc]

theorem exists_foldlM_within (weight : OrderLine → ℕ) {total : ℕ}
    (hweight : ∀ l ∈ lines, |l.exactTotal| ≤ weight l ∧ |l.exactTax| ≤ weight l)
    (h : Within total s) (hbound : total + (lines.map weight).sum < bound) :
    ∃ next, lines.foldlM Summary.addLine s = .ok next ∧
      Within (total + (lines.map weight).sum) next := by
  induction lines generalizing s total with
  | nil => exact ⟨s, rfl, h⟩
  | cons l rest ih =>
    rw [List.map_cons, List.sum_cons, ← Nat.add_assoc] at hbound ⊢
    obtain ⟨hprice, htax⟩ := hweight l List.mem_cons_self
    obtain ⟨middle, hmiddle, hwithin⟩ := h.addLine hprice htax (by omega)
    obtain ⟨next, hnext, hlast⟩ :=
      ih (fun k hk => hweight k (List.mem_cons_of_mem _ hk)) hwithin hbound
    exact ⟨next, by rw [List.foldlM_cons, hmiddle, ok_bind, hnext], hlast⟩

/-- **The summary is there** as long as whole numbers around the totals and taxes of the
    lines add up to less than the bound of a coefficient. -/
theorem exists_ofLines (weight : OrderLine → ℕ)
    (hweight : ∀ l ∈ lines, |l.exactTotal| ≤ weight l ∧ |l.exactTax| ≤ weight l)
    (hbound : (lines.map weight).sum < bound) : ∃ s, ofLines lines = .ok s := by
  have hstart : Within 0 {} := ⟨0, 0, rfl, by simp, by simp, by simp⟩
  obtain ⟨s, hs, untaxed, taxed, hsum, hnonTaxable, htaxable, -⟩ :=
    exists_foldlM_within weight hweight hstart (by rwa [Nat.zero_add])
  obtain ⟨total, htotal, -⟩ := exists_plus_within hnonTaxable htaxable (by omega)
  exact ⟨_, ofLines_eq_ok_iff.2 ⟨s, total, hs, htotal, rfl⟩⟩

/-- Whole numbers under the totals of a summary. -/
def Holds (total : ℕ) (s : Summary) : Prop :=
  ∃ untaxed taxed : ℕ, untaxed + taxed = total ∧ (untaxed : ℚ) ≤ s.nonTaxable.value ∧
    (taxed : ℚ) ≤ s.taxable.value

theorem le_value_plus {x y d : Decimal} {m n : ℕ} (hx : (m : ℚ) ≤ x.value) (hy : (n : ℚ) ≤ y.value)
    (h : plus x y = .ok d) : m + n < bound ∧ ((m + n : ℕ) : ℚ) ≤ d.value := by
  have hsum : ((m + n : ℕ) : ℚ) ≤ x.value + y.value := by
    push_cast
    linarith
  have hsize : |x.value + y.value| < sizeLimit :=
    (Overflow.exists_orElse_iff (Decimal.gives_add x y)).1 ⟨d, h⟩
  have hbound : m + n < bound :=
    Decimal.lt_bound_of_lt_sizeLimit (hsum.trans_lt ((le_abs_self _).trans_lt hsize))
  rw [value_plus h]
  exact ⟨hbound, Decimal.natCast_le_fitted hbound hsum⟩

theorem Holds.addLine {total weight : ℕ} (h : Holds total s) (hprice : (weight : ℚ) ≤ l.exactTotal)
    (hok : s.addLine l = .ok next) : Holds (total + weight) next := by
  obtain ⟨untaxed, taxed, rfl, hnonTaxable, htaxable⟩ := h
  have htotal : ∀ t, l.total = .ok t → (weight : ℚ) ≤ t.value := by
    intro t ht
    have hsize := OrderLine.exists_total_iff.1 ⟨t, ht⟩
    rw [OrderLine.value_total ht]
    refine Decimal.natCast_le_fitted (Decimal.lt_bound_of_lt_sizeLimit ?_) hprice
    exact hprice.trans_lt ((le_abs_self _).trans_lt hsize)
  rcases addLine_eq_ok hok with ⟨-, t, n, ht, hn, rfl⟩ | ⟨-, t, x, u, c, ht, hx, -, -, rfl⟩
  · obtain ⟨-, hheld⟩ := le_value_plus hnonTaxable (htotal t ht) hn
    exact ⟨untaxed + weight, taxed, by omega, hheld, htaxable⟩
  · obtain ⟨-, hheld⟩ := le_value_plus htaxable (htotal t ht) hx
    exact ⟨untaxed, taxed + weight, by omega, hnonTaxable, hheld⟩

theorem Holds.foldlM (weight : OrderLine → ℕ) {total : ℕ}
    (hweight : ∀ l ∈ lines, (weight l : ℚ) ≤ l.exactTotal) (h : Holds total s)
    (hok : lines.foldlM Summary.addLine s = .ok next) :
    Holds (total + (lines.map weight).sum) next := by
  induction lines generalizing s total with
  | nil =>
    have heq : s = next := by simpa using hok
    exact heq ▸ h
  | cons l rest ih =>
    rw [List.foldlM_cons, bind_eq_ok_iff] at hok
    obtain ⟨middle, hmiddle, hrest⟩ := hok
    rw [List.map_cons, List.sum_cons, ← Nat.add_assoc]
    exact ih (fun k hk => hweight k (List.mem_cons_of_mem _ hk))
      (h.addLine (hweight l List.mem_cons_self) hmiddle) hrest

/-- **No summary of more** than the bound of a coefficient: whole numbers under the totals of
    the lines add up to less. -/
theorem sum_lt_bound_of_ofLines (weight : OrderLine → ℕ)
    (hweight : ∀ l ∈ lines, (weight l : ℚ) ≤ l.exactTotal) (h : ofLines lines = .ok s) :
    (lines.map weight).sum < bound := by
  obtain ⟨summed, total, hsummed, htotal, rfl⟩ := ofLines_eq_ok_iff.1 h
  have hstart : Holds 0 {} := ⟨0, 0, rfl, by simp, by simp⟩
  obtain ⟨untaxed, taxed, hsum, hnonTaxable, htaxable⟩ := hstart.foldlM weight hweight hsummed
  rw [Nat.zero_add] at hsum
  rw [← hsum]
  exact (le_value_plus hnonTaxable htaxable htotal).1

/-- **Collected tax is backed by money charged.**  Of lines that were issued under rates that
    are not negative, collected tax is at most the taxable total and this at most the total
    amount; collected tax is not negative where the tax of no line is.  There is a summary
    if the totals of the lines are below `10 ^ 20` and their taxes above `-10 ^ 20`, for
    fewer lines than such totals can fill the range of decimals with. -/
theorem ofLines_of_fairlyTaxed (hlines : ∀ l ∈ lines, l.FairlyTaxed) :
    (∀ s, ofLines lines = .ok s →
      s.collectedTax.value ≤ s.taxable.value ∧ 0 ≤ s.taxable.value ∧
        s.taxable.value ≤ s.total.value ∧
        ((∀ l ∈ lines, 0 ≤ l.tax.value) → 0 ≤ s.collectedTax.value)) ∧
    ((∀ l ∈ lines, l.exactTotal < 10 ^ 20 ∧ -(10 ^ 20) < l.exactTax) →
      lines.length * 10 ^ 20 < bound → ∃ s, ofLines lines = .ok s) := by
  constructor
  · intro s hs
    obtain ⟨summed, total, hsummed, htotal, rfl⟩ := ofLines_eq_ok_iff.1 hs
    have hcharged := charged_of_prices (fun l hl => (hlines l hl).price_nonneg) hsummed
    have hcollected := collectedTax_le_of_taxes (fun l hl => (hlines l hl).tax_le_price) hsummed
    refine ⟨hcollected, hcharged.taxable, ?_, ?_⟩
    · rw [value_plus htotal]
      exact Decimal.value_le_fitted (by linarith [hcharged.nonTaxable])
    · intro htaxes
      have hnonneg := collectedTax_nonneg_of_taxes htaxes hsummed
      exact hnonneg
  · intro hsmall hshort
    refine exists_ofLines (fun _ => 10 ^ 20) ?_ (by simpa using hshort)
    intro l hl
    obtain ⟨htotal, htax⟩ := hsmall l hl
    have hprice := OrderLine.exactTotal_nonneg (hlines l hl).price_nonneg
    have hle := OrderLine.exactTax_le_exactTotal (hlines l hl).tax_le_price
    show |l.exactTotal| ≤ ((10 ^ 20 : ℕ) : ℚ) ∧ |l.exactTax| ≤ ((10 ^ 20 : ℕ) : ℚ)
    push_cast
    rw [abs_of_nonneg hprice, abs_le]
    exact ⟨htotal.le, htax.le, hle.trans htotal.le⟩

end Summary

/-! ### A dish at a fixed price -/

namespace Sample

/-- A dish whose price before tax is a fixed figure, at a tax rate in percent. -/
def dish (figure : String) (rate : Decimal) : Item :=
  { id := .ofNat 3
    name := "Dish"
    fields := [{ label := "Price"
                 pricing := { priceBy := .constant, isBasePrice := true, constant := ⟨figure⟩ } }]
    taxRate := some rate }

def dishOrder (quantity : UInt32) : Selection :=
  { id := some (.ofNat 8), itemId := .ofNat 3, quantity }

/-- The line that ordering a dish gives, at a quote. -/
def dishLine (figure : String) (rate : Decimal) (quantity : UInt32) (q : Quote) : OrderLine :=
  .ofSelection (.ofNat 8) (dish figure rate) (dishOrder quantity) q .epoch

theorem issued_dishLine {figure : String} {rate : Decimal} {q : Quote}
    (hq : Quote.evaluate (dish figure rate).fields [] rate = .ok q) (quantity : UInt32) :
    (dishLine figure rate quantity q).Issued {} (.ofList [dish figure rate]) := by
  have hevaluate : (({} : Desk).create (dishOrder quantity) .nil .epoch).evaluate
      (dish figure rate) = .ok (dishLine figure rate quantity q, (dish figure rate).stock) :=
    Desk.create_eq_ok_iff.2 ⟨q, _, hq, Ledger.evaluate_of_untracked _ _ _ rfl, rfl, rfl⟩
  have hrun : ∃ after, (({} : Desk).create (dishOrder quantity) .nil .epoch).run
      (.ofList [dish figure rate]) = .ok (dishLine figure rate quantity q, after) :=
    ⟨_, Call.run_eq_ok_iff.2 ⟨dish figure rate, _, rfl, hevaluate, rfl⟩⟩
  obtain ⟨after, hafter⟩ := hrun
  exact .created hafter

theorem fairlyTaxed_dishLine {figure : String} {rate : Decimal} {q : Quote}
    (hq : Quote.evaluate (dish figure rate).fields [] rate = .ok q) (hrate : 0 ≤ rate.value)
    (quantity : UInt32) : (dishLine figure rate quantity q).FairlyTaxed :=
  ⟨{}, .ofList [dish figure rate], dish figure rate, issued_dishLine hq quantity, rfl, hrate⟩

def tenPercent : Decimal := ⟨false, 10, 0, by decide, by decide⟩

/-- 12.50 with a tenth of it in tax. -/
def soupQuote : Quote :=
  ⟨⟨false, 1375, 2, by decide, by decide⟩, ⟨false, 125, 2, by decide, by decide⟩,
    ⟨false, 1250, 2, by decide, by decide⟩⟩

def soups : OrderLine := dishLine "12.50" tenPercent 3 soupQuote

/-- A voucher of one: nothing is charged for it, and the tax on it is negative. -/
def voucherQuote : Quote :=
  ⟨.zero, ⟨true, 10, 2, by decide, by decide⟩, .zero⟩

def voucher : OrderLine := dishLine "-1" tenPercent 1 voucherQuote

end Sample

/-- Three soups at 12.50 before tax. -/
theorem ofLines_soups_backed :
    (∀ l ∈ [Sample.soups], l.FairlyTaxed) ∧
    ∃ s, Summary.ofLines [Sample.soups] = .ok s ∧ 0 ≤ s.collectedTax.value ∧
      s.collectedTax.value ≤ s.taxable.value ∧ s.taxable.value ≤ s.total.value := by
  have hquote : Quote.evaluate (Sample.dish "12.50" Sample.tenPercent).fields [] Sample.tenPercent =
      .ok Sample.soupQuote := by
    rw [Quote.evaluate, Breakdown.evaluate, FieldPair.pairByLabel_eq]
    decide +kernel
  have hlines : ∀ l ∈ [Sample.soups], l.FairlyTaxed := by
    rw [List.forall_mem_singleton]
    exact Sample.fairlyTaxed_dishLine hquote (by decide +kernel) 3
  have hsmall : ∀ l ∈ [Sample.soups], l.exactTotal < 10 ^ 20 ∧ -(10 ^ 20) < l.exactTax := by
    rw [List.forall_mem_singleton]
    decide +kernel
  have htaxes : ∀ l ∈ [Sample.soups], 0 ≤ l.tax.value := by
    rw [List.forall_mem_singleton]
    decide +kernel
  obtain ⟨hbacked, hthere⟩ := Summary.ofLines_of_fairlyTaxed hlines
  obtain ⟨s, hs⟩ := hthere hsmall (by decide)
  obtain ⟨hcollected, -, htaxable, hnonneg⟩ := hbacked s hs
  exact ⟨hlines, s, hs, hnonneg htaxes, hcollected, htaxable⟩

/-- A voucher that is ordered on its own: ten cents of tax are taken off, under totals of
    zero. -/
theorem collectedTax_voucher_neg :
    Sample.voucher.FairlyTaxed ∧ Sample.voucher.price.value = 0 ∧ Sample.voucher.exactTotal = 0 ∧
    ∃ s, Summary.ofLines [Sample.voucher] = .ok s ∧ s.taxable.value = 0 ∧ s.total.value = 0 ∧
      s.collectedTax.value = -1 / 10 := by
  have hquote : Quote.evaluate (Sample.dish "-1" Sample.tenPercent).fields [] Sample.tenPercent =
      .ok Sample.voucherQuote := by
    rw [Quote.evaluate, Breakdown.evaluate, FieldPair.pairByLabel_eq]
    decide +kernel
  refine ⟨Sample.fairlyTaxed_dishLine hquote (by decide +kernel) 1, ?_, ?_, _, rfl, ?_, ?_, ?_⟩
  all_goals decide +kernel

end PointOfSale

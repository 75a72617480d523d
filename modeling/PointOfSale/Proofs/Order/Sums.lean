/-
  PointOfSale/Proofs/Order/Sums.lean
  ==================================
  **Totals in cents are exact sums.**  Prices and taxes are numbers of cents.  While the
  totals of the lines, and their taxes, add up to less than `10 ^ 26` in size, no product
  and no sum of a summary loses a digit: it is `Totals.ofLines`, the sums over the
  rationals.  These do not depend on the order of the lines, and two orders in one have
  the sums of both.  They are cents again, so what is due in a settlement is the sum of
  the lines.

  `Sums taken s` is the invariant of the loop over the lines; one more line keeps it
  (`Sums.addLine`).
-/
import PointOfSale.Proofs.Order.Payment

namespace PointOfSale

/-! ### Exact sums -/

/-- The figures of a summary, over the rationals. -/
@[ext] structure Totals where
  nonTaxable : ℚ
  taxable : ℚ
  collectedTax : ℚ
  total : ℚ
  deriving DecidableEq

namespace Totals

instance : Add Totals where
  add a b :=
    ⟨a.nonTaxable + b.nonTaxable, a.taxable + b.taxable, a.collectedTax + b.collectedTax,
      a.total + b.total⟩

theorem add_eq (a b : Totals) :
    a + b =
      ⟨a.nonTaxable + b.nonTaxable, a.taxable + b.taxable, a.collectedTax + b.collectedTax,
        a.total + b.total⟩ := rfl

/-- The sums over the lines, split by whether tax was charged. -/
def ofLines (lines : List OrderLine) : Totals where
  nonTaxable := ((lines.filter (·.tax.isZero)).map (·.exactTotal)).sum
  taxable := ((lines.filter (!·.tax.isZero)).map (·.exactTotal)).sum
  collectedTax := (lines.map (·.exactTax)).sum
  total := (lines.map (·.exactTotal)).sum

theorem ofLines_append (xs ys : List OrderLine) :
    ofLines (xs ++ ys) = ofLines xs + ofLines ys := by
  simp [ofLines, add_eq]

theorem ofLines_perm {xs ys : List OrderLine} (h : xs.Perm ys) : ofLines xs = ofLines ys := by
  unfold ofLines
  rw [((h.filter _).map _).sum_eq, ((h.filter _).map _).sum_eq, (h.map _).sum_eq,
    (h.map _).sum_eq]

/-- Every line counts for one of the two parts. -/
theorem nonTaxable_add_taxable (lines : List OrderLine) :
    (ofLines lines).nonTaxable + (ofLines lines).taxable = (ofLines lines).total := by
  have hperm := List.filter_append_perm (·.tax.isZero) lines
  have hsum := (hperm.map (·.exactTotal)).sum_eq
  rw [List.map_append, List.sum_append] at hsum
  exact hsum

end Totals

def Summary.totals (s : Summary) : Totals :=
  ⟨s.nonTaxable.value, s.taxable.value, s.collectedTax.value, s.total.value⟩

/-! ### Lines in cents -/

/-- Lines whose figures are cents, with room for the sums of their totals and taxes. -/
structure LinesInCents (lines : List OrderLine) : Prop where
  prices : ∀ l ∈ lines, IsCents l.price.value
  taxes : ∀ l ∈ lines, IsCents l.tax.value
  totals : (lines.map (|·.exactTotal|)).sum < centsLimit
  totalTaxes : (lines.map (|·.exactTax|)).sum < centsLimit

namespace LinesInCents

variable {lines part : List OrderLine} {l : OrderLine}

theorem sublist (h : LinesInCents lines) (hpart : part.Sublist lines) : LinesInCents part where
  prices l hl := h.prices l (hpart.subset hl)
  taxes l hl := h.taxes l (hpart.subset hl)
  totals := (sum_map_abs_mono _ hpart).trans_lt h.totals
  totalTaxes := (sum_map_abs_mono _ hpart).trans_lt h.totalTaxes

theorem perm (h : LinesInCents lines) (hperm : part.Perm lines) : LinesInCents part := by
  refine ⟨fun l hl => h.prices l (hperm.subset hl), fun l hl => h.taxes l (hperm.subset hl),
    ?_, ?_⟩
  · rw [(hperm.map _).sum_eq]
    exact h.totals
  · rw [(hperm.map _).sum_eq]
    exact h.totalTaxes

/-- The totals of some of the lines make a number of cents within the limit. -/
theorem total_part (h : LinesInCents lines) (hpart : part.Sublist lines) :
    IsCents (part.map (·.exactTotal)).sum ∧ |(part.map (·.exactTotal)).sum| < centsLimit :=
  ⟨isCents_sum_map fun l hl => (h.prices l (hpart.subset hl)).mul_natCast _,
    (abs_sum_map_le _ hpart).trans_lt h.totals⟩

theorem tax_part (h : LinesInCents lines) (hpart : part.Sublist lines) :
    IsCents (part.map (·.exactTax)).sum ∧ |(part.map (·.exactTax)).sum| < centsLimit :=
  ⟨isCents_sum_map fun l hl => (h.taxes l (hpart.subset hl)).mul_natCast _,
    (abs_sum_map_le _ hpart).trans_lt h.totalTaxes⟩

end LinesInCents

/-! ### The loop over the lines -/

section Exact

variable {a b : Decimal} {l : OrderLine} {x : ℚ}

theorem exists_plus_of_isCents (hx : a.value + b.value = x) (h : IsCents x ∧ |x| < centsLimit) :
    ∃ d, plus a b = .ok d ∧ d.value = x := by
  subst hx
  exact Overflow.exists_orElse_of_isCents (Decimal.gives_add a b) h.1 (le_three_centsLimit h.2)

theorem exists_total_of_isCents (h : IsCents l.exactTotal ∧ |l.exactTotal| < centsLimit) :
    ∃ t, l.total = .ok t ∧ t.value = l.exactTotal :=
  Overflow.exists_orElse_of_isCents l.gives_total h.1 (le_three_centsLimit h.2)

theorem exists_totalTax_of_isCents (h : IsCents l.exactTax ∧ |l.exactTax| < centsLimit) :
    ∃ u, l.totalTax = .ok u ∧ u.value = l.exactTax :=
  Overflow.exists_orElse_of_isCents l.gives_totalTax h.1 (le_three_centsLimit h.2)

end Exact

/-- The figures of a summary are the sums over the lines taken so far. -/
structure Sums (taken : List OrderLine) (s : Summary) : Prop where
  nonTaxable : s.nonTaxable.value = (Totals.ofLines taken).nonTaxable
  taxable : s.taxable.value = (Totals.ofLines taken).taxable
  collectedTax : s.collectedTax.value = (Totals.ofLines taken).collectedTax

namespace Sums

variable {taken lines : List OrderLine} {s : Summary} {l : OrderLine}

theorem start : Sums [] {} := ⟨Decimal.value_zero, Decimal.value_zero, Decimal.value_zero⟩

theorem addLine (h : Sums taken s) (hlines : LinesInCents (taken ++ [l])) :
    ∃ next, s.addLine l = .ok next ∧ Sums (taken ++ [l]) next := by
  have hl : [l].Sublist (taken ++ [l]) := List.sublist_append_right _ _
  obtain ⟨t, ht, htvalue⟩ := exists_total_of_isCents (by simpa using hlines.total_part hl)
  obtain ⟨u, hu, huvalue⟩ := exists_totalTax_of_isCents (by simpa using hlines.tax_part hl)
  have hsums : Totals.ofLines (taken ++ [l]) = Totals.ofLines taken + Totals.ofLines [l] :=
    Totals.ofLines_append taken [l]
  cases hzero : l.tax.isZero with
  | true =>
    have hline : Totals.ofLines [l] = ⟨l.exactTotal, 0, 0, l.exactTotal⟩ := by
      simp [Totals.ofLines, hzero, OrderLine.exactTax, Decimal.isZero_iff.1 hzero]
    rw [hline] at hsums
    obtain ⟨n, hn, hnvalue⟩ := exists_plus_of_isCents (a := s.nonTaxable) (b := t)
      (x := (Totals.ofLines (taken ++ [l])).nonTaxable)
      (by rw [h.nonTaxable, htvalue, hsums]; rfl)
      (hlines.total_part List.filter_sublist)
    refine ⟨{ s with nonTaxable := n }, ?_, hnvalue, ?_, ?_⟩
    · simp [Summary.addLine, hzero, ht, hn]
    · rw [hsums]
      exact h.taxable.trans (add_zero _).symm
    · rw [hsums]
      exact h.collectedTax.trans (add_zero _).symm
  | false =>
    have hline : Totals.ofLines [l] = ⟨0, l.exactTotal, l.exactTax, l.exactTotal⟩ := by
      simp [Totals.ofLines, hzero]
    rw [hline] at hsums
    obtain ⟨x, hx, hxvalue⟩ := exists_plus_of_isCents (a := s.taxable) (b := t)
      (x := (Totals.ofLines (taken ++ [l])).taxable)
      (by rw [h.taxable, htvalue, hsums]; rfl)
      (hlines.total_part List.filter_sublist)
    obtain ⟨c, hc, hcvalue⟩ := exists_plus_of_isCents (a := s.collectedTax) (b := u)
      (x := (Totals.ofLines (taken ++ [l])).collectedTax)
      (by rw [h.collectedTax, huvalue, hsums]; rfl)
      (hlines.tax_part (List.Sublist.refl _))
    refine ⟨{ s with taxable := x, collectedTax := c }, ?_, ?_, hxvalue, hcvalue⟩
    · simp [Summary.addLine, hzero, ht, hu, hx, hc]
    · rw [hsums]
      exact h.nonTaxable.trans (add_zero _).symm

/-- No line is left out, and none overflows. -/
theorem run (hlines : LinesInCents lines) :
    ∃ s, lines.foldlM Summary.addLine {} = .ok s ∧ Sums lines s := by
  apply exists_foldlM Sums start
  intro taken l s hpart hsums
  exact hsums.addLine (hlines.sublist hpart.sublist)

end Sums

/-! ### The summary of an order -/

/-- A settlement takes in exactly the amount: it is what is due for any tender, and up to
    `10 ^ 26` in cash or by card the accounts show it. -/
structure Summary.Charges (s : Summary) (x : ℚ) : Prop where
  due : ∃ due : Decimal, due.value = x ∧ ∀ tender now,
    Transaction.payment <$> settle s tender now = Settlement.pay due tender
  accounts : ∀ tender now t, |tender.cash.value| < centsLimit → |tender.card.value| < centsLimit →
    settle s tender now = .ok t → t.payment.Balanced x

namespace Summary

variable {lines : List OrderLine} {s : Summary}

theorem exists_totals (h : LinesInCents lines) :
    ∃ s, ofLines lines = .ok s ∧ s.totals = Totals.ofLines lines := by
  obtain ⟨s, hs, hsums⟩ := Sums.run h
  obtain ⟨total, htotal, hvalue⟩ := exists_plus_of_isCents (a := s.nonTaxable) (b := s.taxable)
    (x := (Totals.ofLines lines).total)
    (by rw [hsums.nonTaxable, hsums.taxable, Totals.nonTaxable_add_taxable])
    (h.total_part (List.Sublist.refl _))
  refine ⟨{ s with total }, ofLines_eq_ok_iff.2 ⟨s, total, hs, htotal, rfl⟩, ?_⟩
  exact Totals.ext hsums.nonTaxable hsums.taxable hsums.collectedTax hvalue

/-- Cents are not rounded, so what is due is the total. -/
theorem charges_of_isCents (hcents : IsCents s.total.value) (hlimit : |s.total.value| < centsLimit) :
    s.Charges s.total.value := by
  have hround := value_roundMoney_of_isCents hcents
  constructor
  case due =>
    refine ⟨roundMoney s.total, hround, ?_⟩
    intro tender now
    rw [settle_eq]
    cases Settlement.pay (roundMoney s.total) tender <;> rfl
  case accounts =>
    intro tender now t hcash hcard ht
    have hreckoned := reckoned_settle hlimit hcash hcard
    rw [(settle_eq_ok_iff.1 ht).1] at hreckoned
    rw [← hround]
    exact hreckoned.balanced

/-- **A summary in cents is the exact sum** of the lines, in any order; that of two orders is
    the sum of both, and its total is charged as it stands. -/
theorem ofLines_of_cents (h : LinesInCents lines) :
    (∃ s, ofLines lines = .ok s ∧ s.totals = Totals.ofLines lines ∧
      (roundMoney s.total).value = s.total.value ∧ s.Charges (lines.map (·.exactTotal)).sum) ∧
    (∀ xs ys, lines = xs ++ ys →
      ∃ s a b, ofLines lines = .ok s ∧ ofLines xs = .ok a ∧ ofLines ys = .ok b ∧
        s.totals = a.totals + b.totals) ∧
    ∀ other, other.Perm lines →
      ∃ s t, ofLines lines = .ok s ∧ ofLines other = .ok t ∧ t.totals = s.totals := by
  obtain ⟨s, hs, htotals⟩ := exists_totals h
  refine ⟨⟨s, hs, htotals, ?_⟩, ?_, ?_⟩
  · have htotal : s.total.value = (lines.map (·.exactTotal)).sum := congrArg Totals.total htotals
    obtain ⟨hcents, hlimit⟩ := h.total_part (List.Sublist.refl lines)
    rw [← htotal] at hcents hlimit ⊢
    exact ⟨value_roundMoney_of_isCents hcents, charges_of_isCents hcents hlimit⟩
  · rintro xs ys rfl
    obtain ⟨a, ha, hatotals⟩ := exists_totals (h.sublist (List.sublist_append_left xs ys))
    obtain ⟨b, hb, hbtotals⟩ := exists_totals (h.sublist (List.sublist_append_right xs ys))
    refine ⟨s, a, b, hs, ha, hb, ?_⟩
    rw [htotals, hatotals, hbtotals, Totals.ofLines_append]
  · intro other hperm
    obtain ⟨t, ht, httotals⟩ := exists_totals (h.perm hperm)
    refine ⟨s, t, hs, ht, ?_⟩
    rw [htotals, httotals, Totals.ofLines_perm hperm]

end Summary

namespace Sample

def water : OrderLine :=
  dishLine "2" .zero 4 ⟨.ofUInt32 2, .zero, .ofUInt32 2⟩

/-- Soups with tax, vouchers with negative tax, and water without any. -/
def meal : List OrderLine := [soups, water, voucher]

end Sample

/-- 41.25 for the soups and 8 for the water; the voucher takes a tenth off the tax. -/
theorem ofLines_meal :
    LinesInCents Sample.meal ∧
    ∃ s, Summary.ofLines Sample.meal = .ok s ∧ s.totals = ⟨8, 41.25, 3.65, 49.25⟩ ∧
      s.Charges 49.25 ∧
      ∃ t, Summary.ofLines Sample.meal.reverse = .ok t ∧ t.totals = s.totals := by
  have hmeal : LinesInCents Sample.meal := by
    refine ⟨?_, ?_, ?_, ?_⟩ <;> decide +kernel
  have hsums : Totals.ofLines Sample.meal = ⟨8, 41.25, 3.65, 49.25⟩ := by decide +kernel
  obtain ⟨⟨s, hs, htotals, -, hcharges⟩, -, hperm⟩ := Summary.ofLines_of_cents hmeal
  obtain ⟨s', t, hs', ht, hsame⟩ := hperm _ (List.reverse_perm _)
  rw [hs] at hs'
  cases hs'
  have htotal : (Sample.meal.map (·.exactTotal)).sum = 49.25 := congrArg Totals.total hsums
  rw [htotal] at hcharges
  exact ⟨hmeal, s, hs, htotals.trans hsums, hcharges, t, ht, hsame⟩

end PointOfSale

/-
  PointOfSale/Proofs/Pricing/Figures.lean
  =======================================
  **The figures of a quote**: price, tax and subtotal, each rounded to cents by itself, the
  two prices after they were raised to zero.  Under a rate that is not negative they keep
  the order that the numbers have which they were rounded from (`Quote.Consistent`), whatever
  the size of these.  Where no digit of the tax and of the sum is lost, the price is the sum
  of subtotal and tax up to one cent: three roundings miss by half a cent each.
-/
import PointOfSale.Proofs.Pricing.Refinement

namespace PointOfSale

theorem halfEven_add_near (x y : ℚ) :
    |halfEven (x + y) - (halfEven x + halfEven y)| ≤ 1 := by
  have hsum := abs_le.1 (nearestEven_halfEven (x + y)).abs_sub_le
  have hx := abs_le.1 (nearestEven_halfEven x).abs_sub_le
  have hy := abs_le.1 (nearestEven_halfEven y).abs_sub_le
  have hlt : |((halfEven (x + y) - (halfEven x + halfEven y) : ℤ) : ℚ)| < 2 := by
    rw [abs_lt]
    push_cast
    constructor <;> linarith
  have hint : |halfEven (x + y) - (halfEven x + halfEven y)| < 2 := by exact_mod_cast hlt
  omega

theorem nearestCents_add_near (x y : ℚ) :
    |nearestCents (x + y) - (nearestCents x + nearestCents y)| ≤ 1 / 100 := by
  have hint : ((|halfEven (x * 100 + y * 100) - (halfEven (x * 100) + halfEven (y * 100))| : ℤ) :
      ℚ) ≤ 1 := by
    exact_mod_cast halfEven_add_near (x * 100) (y * 100)
  push_cast at hint
  unfold nearestCents
  rw [add_mul, ← add_div, ← sub_div, abs_div, abs_of_pos (by norm_num : (0 : ℚ) < 100)]
  exact div_le_div_of_nonneg_right hint (by norm_num)

theorem ExactQuote.price_near {preTax : ℚ} (rate : ℚ) (hpos : 0 ≤ preTax) (hrate : 0 ≤ rate) :
    |(ExactQuote.ofPreTax preTax rate).price -
      ((ExactQuote.ofPreTax preTax rate).subtotal + (ExactQuote.ofPreTax preTax rate).tax)| ≤
        1 / 100 := by
  have htax : 0 ≤ preTax * rate / 100 := by positivity
  simp only [ExactQuote.ofPreTax, max_eq_right hpos, max_eq_right (add_nonneg hpos htax)]
  exact nearestCents_add_near _ _

namespace Quote

variable {preTax rate : Decimal} {q : Quote}

/-! ### Signs and order -/

theorem ofPreTax_eq_ok (h : ofPreTax preTax rate = .ok q) :
    ∃ product price : Decimal, product.value = Decimal.fitted (preTax.value * rate.value) ∧
      price.value = Decimal.fitted (preTax.value + product.hundredth.value) ∧
      q = ⟨roundMoney (price.atLeast .zero), roundMoney product.hundredth,
        roundMoney (preTax.atLeast .zero)⟩ := by
  simp only [ofPreTax, taxOn, bind_eq_ok_iff, map_eq_ok_iff, pure_eq_ok_iff] at h
  obtain ⟨tax, ⟨product, hproduct, rfl⟩, price, hprice, rfl⟩ := h
  have hproductValue := Operation.fitted_of_apply hproduct
  have hpriceValue := Operation.fitted_of_apply hprice
  simp only [Operation.exact] at hproductValue hpriceValue
  exact ⟨product, price, hproductValue, hpriceValue, rfl⟩

theorem price_nonneg_of_preTax (h : ofPreTax preTax rate = .ok q) : 0 ≤ q.price.value := by
  obtain ⟨product, price, -, -, rfl⟩ := ofPreTax_eq_ok h
  apply roundMoney_nonneg
  rw [Decimal.value_atLeast, Decimal.value_zero]
  exact le_max_right _ _

/-- How the figures of a quote are related to the price before tax. -/
structure Consistent (q : Quote) (preTax : ℚ) : Prop where
  cents : IsCents q.price.value ∧ IsCents q.tax.value ∧ IsCents q.subtotal.value
  charged : 0 ≤ preTax →
    0 ≤ q.tax.value ∧ q.tax.value ≤ q.price.value ∧ q.subtotal.value ≤ q.price.value
  discounted : preTax < 0 → q.price.value = 0 ∧ q.subtotal.value = 0 ∧ q.tax.value ≤ 0

theorem value_roundMoney_atLeast_of_nonpos {d : Decimal} (h : d.value ≤ 0) :
    (roundMoney (d.atLeast .zero)).value = 0 := by
  rw [value_roundMoney, Decimal.value_atLeast, Decimal.value_zero, max_eq_right h]
  simp

theorem consistent_ofPreTax (hrate : 0 ≤ rate.value) (h : ofPreTax preTax rate = .ok q) :
    q.Consistent preTax.value := by
  obtain ⟨product, price, hproduct, hprice, rfl⟩ := ofPreTax_eq_ok h
  refine ⟨⟨isCents_roundMoney _, isCents_roundMoney _, isCents_roundMoney _⟩, ?_, ?_⟩
  · intro hpos
    have htax : 0 ≤ product.hundredth.value := by
      apply Decimal.hundredth_nonneg
      rw [hproduct]
      exact Decimal.fitted_nonneg (mul_nonneg hpos hrate)
    have hle : price.value ≤ (price.atLeast .zero).value := by
      rw [Decimal.value_atLeast]
      exact le_max_left _ _
    have htaxPrice : product.hundredth.value ≤ price.value := by
      rw [hprice]
      exact Decimal.value_le_fitted (by linarith)
    have hpreTaxPrice : preTax.value ≤ price.value := by
      rw [hprice]
      exact Decimal.value_le_fitted (by linarith)
    refine ⟨roundMoney_nonneg htax, roundMoney_mono (htaxPrice.trans hle), ?_⟩
    apply roundMoney_mono
    rw [Decimal.value_atLeast, Decimal.value_zero, max_eq_left hpos]
    exact hpreTaxPrice.trans hle
  · intro hneg
    have htax : product.hundredth.value ≤ 0 := by
      apply Decimal.hundredth_nonpos
      rw [hproduct]
      exact Decimal.fitted_nonpos (mul_nonpos_of_nonpos_of_nonneg hneg.le hrate)
    have hbelow : price.value ≤ 0 := by
      rw [hprice]
      exact Decimal.fitted_nonpos (by linarith)
    exact ⟨value_roundMoney_atLeast_of_nonpos hbelow, value_roundMoney_atLeast_of_nonpos hneg.le,
      roundMoney_nonpos htax⟩

/-- Tax is at most the price, also where the price before tax is negative: then the price
    is zero and the tax is not above it. -/
theorem Consistent.tax_le_price {x : ℚ} (h : q.Consistent x) : q.tax.value ≤ q.price.value := by
  rcases le_or_gt 0 x with hpos | hneg
  · exact (h.charged hpos).2.1
  · obtain ⟨hprice, -, htax⟩ := h.discounted hneg
    rw [hprice]
    exact htax

/-! ### Exact tax -/

/-- The product of price and rate, its hundredth part and the sum of price and tax are
    numbers of decimals. -/
structure TaxHeld (preTax rate : ℚ) : Prop where
  product : ∃ d : Decimal, d.value = preTax * rate
  tax : ∃ d : Decimal, d.value = preTax * rate / 100
  sum : ∃ d : Decimal, d.value = preTax + preTax * rate / 100

theorem TaxHeld.isExact (h : TaxHeld preTax.value rate.value) :
    ∀ s ∈ taxPerformed preTax rate, s.IsExact := by
  obtain ⟨⟨x, hx⟩, ⟨y, hy⟩, z, hz⟩ := h
  have hmultiply : (DecimalStep.apply .multiply rate preTax).IsExact :=
    DecimalStep.isExact_of_held hx
  intro s hs
  rcases List.mem_cons.mp hs with rfl | hs
  · exact hmultiply
  · unfold performedAfter at hs
    split at hs
    · rename_i product hproduct
      have hproductValue := Operation.value_of_apply hproduct hmultiply
      have hdivide : (DecimalStep.quotient product Decimal.hundred).IsExact := by
        refine DecimalStep.isExact_of_held (e := y) ?_
        rw [DecimalStep.exact, hproductValue, Decimal.value_hundred]
        exact hy
      have htaxValue := hdivide _ product.div?_hundred
      rcases List.mem_cons.mp hs with rfl | hs
      · exact hdivide
      · rw [List.mem_singleton.mp hs]
        refine DecimalStep.isExact_of_held (e := z) ?_
        rw [DecimalStep.exact, htaxValue, DecimalStep.exact, hproductValue, Decimal.value_hundred]
        exact hz
    · cases hs

/-! ### Quotes -/

theorem exists_preTax {fields : List Field} {choices : List Choice}
    (h : evaluate fields choices rate = .ok q) :
    ∃ parts preTax, Breakdown.evaluate fields choices = .ok parts ∧ parts.preTax = .ok preTax ∧
      ofPreTax preTax rate = .ok q := by
  simp only [evaluate, ofBreakdown, bind_eq_ok_iff] at h
  obtain ⟨parts, hparts, preTax, hpreTax, hq⟩ := h
  exact ⟨parts, preTax, hparts, hpreTax, hq⟩

/-- **The figures of a quote are consistent**, under a rate that is not negative; and where the
    tax and its sum with the price are held by decimals, the price of what is charged is
    subtotal and tax up to a cent. -/
theorem evaluate_consistent {fields : List Field} {choices : List Choice}
    (hrate : 0 ≤ rate.value) (h : evaluate fields choices rate = .ok q) :
    ∃ parts preTax, Breakdown.evaluate fields choices = .ok parts ∧ parts.preTax = .ok preTax ∧
      q.Consistent preTax.value ∧
      (TaxHeld preTax.value rate.value →
        q.exact = ExactQuote.ofPreTax preTax.value rate.value ∧
        (0 ≤ preTax.value → |q.price.value - (q.subtotal.value + q.tax.value)| ≤ 1 / 100)) := by
  obtain ⟨parts, preTax, hparts, hpreTax, hq⟩ := exists_preTax h
  refine ⟨parts, preTax, hparts, hpreTax, consistent_ofPreTax hrate hq, ?_⟩
  intro hheld
  have hexact := exact_ofPreTax hq hheld.isExact
  refine ⟨hexact, fun hpos => ?_⟩
  have hnear := ExactQuote.price_near rate.value hpos hrate
  rw [← hexact] at hnear
  exact hnear

end Quote

namespace Sample

def gum : List Field :=
  [{ label := "Gum"
     pricing := { priceBy := .constant, isBasePrice := true, constant := ⟨"0.125"⟩ } }]

end Sample

/-- At four percent on 0.125 the whole cent is lost: 0.12 and no tax make 0.13. -/
theorem gum_consistent :
    0 ≤ (Decimal.ofUInt32 4).value ∧ Quote.TaxHeld (1 / 8) (Decimal.ofUInt32 4).value ∧
      ∃ q, Quote.evaluate Sample.gum [] (.ofUInt32 4) = .ok q ∧ q.Consistent (1 / 8) ∧
        |q.price.value - (q.subtotal.value + q.tax.value)| ≤ 1 / 100 ∧
        q.exact = { price := 0.13, tax := 0, subtotal := 0.12 } := by
  have hrate : 0 ≤ (Decimal.ofUInt32 4).value := by decide +kernel
  have hheld : Quote.TaxHeld (1 / 8) (Decimal.ofUInt32 4).value :=
    { product := ⟨⟨false, 5, 1, by decide, by decide⟩, by decide +kernel⟩
      tax := ⟨⟨false, 5, 3, by decide, by decide⟩, by decide +kernel⟩
      sum := ⟨⟨false, 13, 2, by decide, by decide⟩, by decide +kernel⟩ }
  have hquote : ∃ q, Quote.evaluate Sample.gum [] (.ofUInt32 4) = .ok q ∧
      q.exact = { price := 0.13, tax := 0, subtotal := 0.12 } := by
    rw [Quote.evaluate, Breakdown.evaluate, FieldPair.pairByLabel_eq]
    exact ⟨⟨⟨false, 13, 2, by decide, by decide⟩, ⟨false, 0, 2, by decide, by decide⟩,
      ⟨false, 12, 2, by decide, by decide⟩⟩, by decide +kernel, by decide +kernel⟩
  have hbase : ∃ price, Breakdown.evaluate Sample.gum [] = .ok { base := price } ∧
      price.value = 1 / 8 := by
    rw [Breakdown.evaluate, FieldPair.pairByLabel_eq]
    exact ⟨⟨false, 125, 3, by decide, by decide⟩, by decide +kernel, by decide +kernel⟩
  obtain ⟨q, hq, hexact⟩ := hquote
  obtain ⟨price, hparts, hvalue⟩ := hbase
  obtain ⟨parts, preTax, hevaluated, hpreTax, hconsistent, hnear⟩ :=
    Quote.evaluate_consistent hrate hq
  obtain rfl : { base := price } = parts := Except.ok.inj (hparts.symm.trans hevaluated)
  obtain rfl : price = preTax := by simpa [Breakdown.preTax] using hpreTax
  rw [hvalue] at hconsistent hnear
  have hcent := (hnear hheld).2 (by norm_num)
  exact ⟨hrate, hheld, q, hq, hconsistent, hcent, hexact⟩

end PointOfSale

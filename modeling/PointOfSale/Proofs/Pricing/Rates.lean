/-
  PointOfSale/Proofs/Pricing/Rates.lean
  =====================================
  **Tax rates count by the number they denote.**  An operation gives a number that depends
  on the numbers of its operands alone, whatever their scales.  So two rates that denote
  one number charge alike: the same evaluations succeed, with the same price, tax and
  subtotal (`Quote.evaluate_of_sameRate`).  Only a fault that names its operands shows the
  scale.
-/
import PointOfSale.Order.Desk
import PointOfSale.Proofs.Pricing.Refinement

namespace PointOfSale

/-- Operands of the same value give results of the same value. -/
theorem Operation.exists_apply_of_value {op : Operation} {value accumulator other total d : Decimal}
    (hvalue : other.value = value.value) (htotal : total.value = accumulator.value)
    (h : op.apply value accumulator = .ok d) :
    ∃ e, op.apply other total = .ok e ∧ e.value = d.value := by
  have hgives := gives_result? op value accumulator
  have hother := gives_result? op other total
  rw [hvalue, htotal] at hother
  have hresult := apply_eq_ok_iff.1 h
  have hsome : (op.result? other total).isSome := by
    rw [hother.isSome_iff, ← hgives.isSome_iff, hresult]
    rfl
  obtain ⟨e, he⟩ := Option.isSome_iff_exists.1 hsome
  exact ⟨e, apply_eq_ok_iff.2 he, by rw [hother.value he, hgives.value hresult]⟩

namespace Quote

variable {preTax rate other : Decimal} {fields : List Field} {choices : List Choice} {q : Quote}

theorem exists_ofPreTax_of_sameRate (hrate : other.value = rate.value)
    (h : ofPreTax preTax rate = .ok q) : ∃ r, ofPreTax preTax other = .ok r ∧ r.exact = q.exact := by
  simp only [ofPreTax, taxOn, bind_eq_ok_iff, map_eq_ok_iff, pure_eq_ok_iff] at h
  obtain ⟨_, ⟨product, hproduct, rfl⟩, price, hprice, rfl⟩ := h
  obtain ⟨sameProduct, hsameProduct, hproductValue⟩ :=
    Operation.exists_apply_of_value hrate rfl hproduct
  have htax : sameProduct.hundredth.value = product.hundredth.value := by
    rw [Decimal.value_hundredth, Decimal.value_hundredth, hproductValue]
  obtain ⟨samePrice, hsamePrice, hpriceValue⟩ := Operation.exists_apply_of_value htax rfl hprice
  refine ⟨⟨roundMoney (samePrice.atLeast .zero), roundMoney sameProduct.hundredth,
    roundMoney (preTax.atLeast .zero)⟩, ?_, ?_⟩
  · rw [ofPreTax, taxOn, hsameProduct, ok_map, ok_bind, hsamePrice, ok_bind]
    rfl
  · simp only [exact, value_roundMoney, Decimal.value_atLeast, hpriceValue, htax]

theorem exists_evaluate_of_sameRate (hrate : other.value = rate.value)
    (h : evaluate fields choices rate = .ok q) :
    ∃ r, evaluate fields choices other = .ok r ∧ r.exact = q.exact := by
  obtain ⟨b, hb, hrest⟩ := bind_eq_ok_iff.1 h
  obtain ⟨preTax, hpreTax, hq⟩ := bind_eq_ok_iff.1 hrest
  obtain ⟨r, hr, hexact⟩ := exists_ofPreTax_of_sameRate hrate hq
  refine ⟨r, ?_, hexact⟩
  rw [evaluate, hb, ok_bind, ofBreakdown, hpreTax, ok_bind, hr]

/-- **Rates that denote one number charge alike.** -/
theorem evaluate_of_sameRate (hrate : other.value = rate.value) :
    (evaluate fields choices other).toOption.map exact =
      (evaluate fields choices rate).toOption.map exact := by
  cases hq : evaluate fields choices rate with
  | ok q =>
    obtain ⟨r, hr, hexact⟩ := exists_evaluate_of_sameRate hrate hq
    rw [hr]
    exact congrArg some hexact
  | error fault =>
    cases hr : evaluate fields choices other with
    | error _ => rfl
    | ok r =>
      obtain ⟨q, hq', -⟩ := exists_evaluate_of_sameRate hrate.symm hr
      rw [hq] at hq'
      cases hq'

end Quote

/-! ### Items -/

/-- Two items with tax rates of the same value, or without any, that are charged alike at
    every desk. -/
structure Item.TaxedAlike (a b : Item) : Prop where
  same_rate : b.taxRate.map Decimal.value = a.taxRate.map Decimal.value
  same_charge : ∀ (desk : Desk) (choices : List Choice),
    (desk.price b choices).toOption.map Quote.exact =
      (desk.price a choices).toOption.map Quote.exact

theorem Item.taxedAlike_of_rates {a b : Item} (hfields : b.fields = a.fields)
    (hrates : b.taxRate.map Decimal.value = a.taxRate.map Decimal.value) : a.TaxedAlike b := by
  refine ⟨hrates, ?_⟩
  intro desk choices
  have hrate : (b.taxRateOr desk.defaultTaxRate).value =
      (a.taxRateOr desk.defaultTaxRate).value := by
    have hvalue : ∀ item : Item, (item.taxRateOr desk.defaultTaxRate).value =
        (item.taxRate.map Decimal.value).getD desk.defaultTaxRate.value := by
      intro item
      rw [taxRateOr]
      cases item.taxRate <;> rfl
    rw [hvalue, hvalue, hrates]
  rw [Desk.price, Desk.price, hfields]
  exact Quote.evaluate_of_sameRate hrate

end PointOfSale

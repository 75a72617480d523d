/-
  PointOfSale/Proofs/Pricing/Faults.lean
  ======================================
  **What can go wrong with a price.**  An evaluation gives a quote or one of five faults,
  and each of them has its cause (`PriceFault`): a factor of a base figure that is no
  operation, a figure that is no number, an exact result beyond the size limit, a dependency
  that is not described, a field without the choice that it needs.  The division of the tax
  is unchecked; it is there for every product, and within half a unit of its last place
  (`Quote.evaluate_or_fault`).
-/
import PointOfSale.Proofs.Pricing.Dependence
import PointOfSale.Proofs.Pricing.Refinement

namespace PointOfSale

/-! ### Causes -/

/-- The figures that the pricing of a field looks up, among all the fields of its item. -/
def FieldPair.figures (p : FieldPair) (all : List FieldPair) : List Literal :=
  match p.field.pricing.priceBy with
  | .constant | .input => [p.field.pricing.constant]
  | .perOption => p.chosen.toList.flatMap fun chosen =>
    (p.field.pricing.perOption.get? chosen.text).toList
  | .optionValue => p.chosen.toList
  | .scaledOptionValue => p.field.pricing.constant :: p.chosen.toList
  | .dependency => p.chosen.toList.flatMap fun chosen =>
    (p.field.pricing.dependsOn.bind fun d => d.entry? chosen.text all).toList
  | .unpriced => []

/-- A fault in the evaluation of a price, with its cause among the active fields. -/
inductive PriceFault (fields : List Field) (choices : List Choice) : Fault → Prop where
  | unsupportedOperator {f : Field} (hf : f ∈ fields) (hactive : f.pricing.isActive = true)
      (hbase : f.pricing.isBasePrice = true)
      (htoken : Operation.ofToken? f.pricing.factor = none) :
      PriceFault fields choices (.unsupportedOperator f.pricing.factor)
  | invalidNumericLiteral {f : Field} {l : Literal} (hf : f ∈ fields)
      (hactive : f.pricing.isActive = true)
      (hl : l ∈ (FieldPair.ofChoices choices f).figures (fields.map (FieldPair.ofChoices choices)))
      (hnone : Literal.number? l.text.toList = none) :
      PriceFault fields choices (.invalidNumericLiteral l.text)
  | numericOverflow {op : Operation} {value accumulator : Decimal}
      (hsize : Decimal.sizeLimit ≤ |op.exact value.value accumulator.value|) :
      PriceFault fields choices (.numericOverflow accumulator op value)
  | missingDependency {f : Field} (hf : f ∈ fields) (hactive : f.pricing.isActive = true)
      (hby : f.pricing.priceBy = .dependency) (hnone : f.pricing.dependsOn = none) :
      PriceFault fields choices (.missingDependency f.label)
  | selectionNotFound {f : Field} (hf : f ∈ fields) (hactive : f.pricing.isActive = true)
      (hreads : f.pricing.priceBy.readsChoice = true)
      (hnone : chosenValue? choices f.label = none) :
      PriceFault fields choices (.selectionNotFound f.label)

theorem Literal.number_eq_error_iff {l : Literal} {fault : Fault} :
    l.number = .error fault ↔
      Literal.number? l.text.toList = none ∧ .invalidNumericLiteral l.text = fault := by
  unfold Literal.number Literal.parse
  cases Literal.number? l.text.toList <;> simp

variable {fields : List Field} {choices : List Choice} {f : Field} {fault : Fault}

theorem PriceFault.of_apply {op : Operation} {value accumulator : Decimal}
    (h : op.apply value accumulator = .error fault) : PriceFault fields choices fault := by
  obtain ⟨hnone, rfl⟩ := Operation.apply_eq_error_iff.1 h
  have hsome := (Operation.gives_result? op value accumulator).isSome_iff
  rw [hnone, Option.isSome_none] at hsome
  exact .numericOverflow (not_lt.1 fun hlt => Bool.false_ne_true (hsome.2 hlt))

/-! ### One field

One lemma for each way in which a field is priced. -/

theorem FieldPair.choice_eq_ok_iff {p : FieldPair} {l : Literal} :
    p.choice = .ok l ↔ p.chosen = some l := by
  unfold choice
  cases p.chosen <;> simp

namespace PriceFault

section Field

variable (hf : f ∈ fields) (hactive : f.pricing.isActive = true)

include hf hactive

theorem of_choice (hreads : f.pricing.priceBy.readsChoice = true)
    (h : (FieldPair.ofChoices choices f).choice = .error fault) :
    PriceFault fields choices fault := by
  unfold FieldPair.choice at h
  split at h
  · cases h
  · rename_i hnone
    cases h
    exact .selectionNotFound hf hactive hreads hnone

theorem of_number {l : Literal}
    (hl : l ∈ (FieldPair.ofChoices choices f).figures (fields.map (FieldPair.ofChoices choices)))
    (h : l.number = .error fault) : PriceFault fields choices fault := by
  obtain ⟨hnone, rfl⟩ := Literal.number_eq_error_iff.1 h
  exact .invalidNumericLiteral hf hactive hl hnone

theorem of_constant
    (hread : f.pricing.constant ∈
      (FieldPair.ofChoices choices f).figures (fields.map (FieldPair.ofChoices choices)))
    (h : (FieldPair.ofChoices choices f).constantContribution = .error fault) :
    PriceFault fields choices fault := by
  rcases bind_eq_error_iff.1 h with h | ⟨d, -, h⟩
  · exact of_number hf hactive hread h
  · cases h

theorem of_option (hby : f.pricing.priceBy = .perOption)
    (h : (FieldPair.ofChoices choices f).optionContribution = .error fault) :
    PriceFault fields choices fault := by
  rcases bind_eq_error_iff.1 h with h | ⟨chosen, hchosen, h⟩
  · exact of_choice hf hactive (by rw [hby]; rfl) h
  · rw [FieldPair.choice_eq_ok_iff] at hchosen
    simp only [FieldPair.field_ofChoices] at h
    cases hoption : f.pricing.perOption.get? chosen.text with
    | none =>
      rw [hoption] at h
      cases h
    | some l =>
      rw [hoption] at h
      rcases bind_eq_error_iff.1 h with h | ⟨d, -, h⟩
      · exact of_number hf hactive (by simp [FieldPair.figures, hby, hchosen, hoption]) h
      · cases h

theorem of_value (hby : f.pricing.priceBy = .optionValue)
    (h : (FieldPair.ofChoices choices f).valueContribution = .error fault) :
    PriceFault fields choices fault := by
  rcases bind_eq_error_iff.1 h with h | ⟨chosen, hchosen, h⟩
  · exact of_choice hf hactive (by rw [hby]; rfl) h
  · rw [FieldPair.choice_eq_ok_iff] at hchosen
    rcases bind_eq_error_iff.1 h with h | ⟨d, -, h⟩
    · exact of_number hf hactive (by simp [FieldPair.figures, hby, hchosen]) h
    · cases h

theorem of_scaled (hby : f.pricing.priceBy = .scaledOptionValue)
    (h : (FieldPair.ofChoices choices f).scaledContribution = .error fault) :
    PriceFault fields choices fault := by
  rcases bind_eq_error_iff.1 h with h | ⟨chosen, hchosen, h⟩
  · exact of_choice hf hactive (by rw [hby]; rfl) h
  · rw [FieldPair.choice_eq_ok_iff] at hchosen
    rcases bind_eq_error_iff.1 h with h | ⟨scale, -, h⟩
    · exact of_number hf hactive (by simp [FieldPair.figures, hby]) h
    · rcases bind_eq_error_iff.1 h with h | ⟨x, -, h⟩
      · exact of_number hf hactive (by simp [FieldPair.figures, hby, hchosen]) h
      · rcases bind_eq_error_iff.1 h with h | ⟨d, -, h⟩
        · exact of_apply h
        · cases h

theorem of_dependency (hby : f.pricing.priceBy = .dependency)
    (h : (FieldPair.ofChoices choices f).dependencyContribution
      (fields.map (FieldPair.ofChoices choices)) = .error fault) :
    PriceFault fields choices fault := by
  rcases bind_eq_error_iff.1 h with h | ⟨chosen, hchosen, h⟩
  · exact of_choice hf hactive (by rw [hby]; rfl) h
  · rw [FieldPair.choice_eq_ok_iff] at hchosen
    simp only [FieldPair.field_ofChoices] at h
    cases hdepends : f.pricing.dependsOn with
    | none =>
      rw [hdepends] at h
      cases h
      exact .missingDependency hf hactive hby hdepends
    | some d =>
      rw [hdepends] at h
      rcases bind_eq_error_iff.1 h with h | ⟨x, -, h⟩
      · unfold PriceDependency.resolve at h
        split at h
        · rename_i l hl
          exact of_number hf hactive (by simp [FieldPair.figures, hby, hchosen, hdepends, hl]) h
        · cases h
      · cases h

end Field

/-- A field without a contribution has a fault with its cause. -/
theorem of_contribution (hf : f ∈ fields)
    (h : (FieldPair.ofChoices choices f).contribution (fields.map (FieldPair.ofChoices choices)) =
      .error fault) : PriceFault fields choices fault := by
  cases hactive : f.pricing.isActive with
  | false =>
    rw [FieldPair.contribution_of_inactive hactive] at h
    cases h
  | true =>
    have haffects : f.pricing.affectsPrice = true := (Bool.and_eq_true_iff.1 hactive).1
    simp only [FieldPair.contribution, FieldPair.field_ofChoices, haffects, if_true] at h
    cases hby : f.pricing.priceBy with
    | constant | input =>
      simp only [hby, map_eq_error_iff] at h
      exact of_constant hf hactive (by simp [FieldPair.figures, hby]) h
    | perOption =>
      simp only [hby, map_eq_error_iff] at h
      exact of_option hf hactive hby h
    | optionValue =>
      simp only [hby, map_eq_error_iff] at h
      exact of_value hf hactive hby h
    | scaledOptionValue =>
      simp only [hby, map_eq_error_iff] at h
      exact of_scaled hf hactive hby h
    | dependency =>
      simp only [hby, map_eq_error_iff] at h
      exact of_dependency hf hactive hby h
    | unpriced =>
      simp only [hby] at h
      cases h

/-! ### The whole evaluation -/

/-- Only base figures use the factor of their field as an operation. -/
theorem isBasePrice_of_base {p : FieldPair} {all : List FieldPair} {d : Decimal}
    (h : p.contribution all = .ok (some (.base d))) :
    p.field.pricing.isActive = true ∧ p.field.pricing.isBasePrice = true := by
  have hactive : p.field.pricing.isActive = true := by
    cases hinactive : p.field.pricing.isActive with
    | true => rfl
    | false =>
      rw [FieldPair.contribution_of_inactive hinactive] at h
      cases h
  refine ⟨hactive, ?_⟩
  have haffects : p.field.pricing.affectsPrice = true := (Bool.and_eq_true_iff.1 hactive).1
  have htier := FieldPair.tier_of_base h
  -- a figure that is not a base price is added or multiplied
  by_contra hbase
  have hfactor : ∀ x, FieldPair.byFactor p.field.pricing x ≠ .base d := by
    intro x
    unfold FieldPair.byFactor
    split <;> simp
  simp only [FieldPair.contribution, haffects, if_true] at h
  cases hby : p.field.pricing.priceBy with
  | constant | input =>
    simp only [hby, map_eq_ok_iff, Option.some.injEq, exists_eq_right] at h
    obtain ⟨x, -, h⟩ := bind_eq_ok_iff.1 h
    rw [if_neg hbase, pure_eq_ok_iff] at h
    exact hfactor x h
  | perOption =>
    simp only [hby, map_eq_ok_iff, Option.some.injEq, exists_eq_right] at h
    obtain ⟨chosen, -, h⟩ := bind_eq_ok_iff.1 h
    cases hoption : p.field.pricing.perOption.get? chosen.text with
    | none =>
      rw [hoption] at h
      simp [hbase] at h
    | some l =>
      rw [hoption] at h
      obtain ⟨x, -, h⟩ := bind_eq_ok_iff.1 h
      simp [hbase] at h
  | unpriced =>
    simp only [hby] at h
    cases h
  | optionValue | scaledOptionValue | dependency =>
    rw [hby] at htier
    cases htier

theorem of_step {parts : Breakdown} (hf : f ∈ fields)
    (h : Breakdown.step (fields.map (FieldPair.ofChoices choices)) parts
      (FieldPair.ofChoices choices f) = .error fault) : PriceFault fields choices fault := by
  rcases bind_eq_error_iff.1 h with h | ⟨c?, hc, h⟩
  · exact of_contribution hf h
  · cases c? with
    | none => cases h
    | some c =>
      cases c with
      | adder d | multiplier d => cases h
      | base d =>
        obtain ⟨hactive, hbase⟩ := isBasePrice_of_base hc
        rcases bind_eq_error_iff.1 h with h | ⟨op, -, h⟩
        · obtain ⟨hnone, rfl⟩ := Operation.parse_eq_error_iff.1 h
          exact .unsupportedOperator hf hactive hbase hnone
        · rcases bind_eq_error_iff.1 h with h | ⟨total, -, h⟩
          · exact of_apply h
          · cases h

theorem of_breakdown (h : Breakdown.evaluate fields choices = .error fault) :
    PriceFault fields choices fault := by
  rw [Breakdown.evaluate_eq_foldlM] at h
  obtain ⟨parts, f, hf, hstep⟩ := exists_error_of_foldlM h
  obtain ⟨tier, -, hmem⟩ := List.mem_flatMap.1 hf
  exact of_step (List.mem_of_mem_filter hmem) hstep

theorem of_preTax {parts : Breakdown} (h : parts.preTax = .error fault) :
    PriceFault fields choices fault := by
  rcases bind_eq_error_iff.1 h with h | ⟨scaled, -, h⟩
  · obtain ⟨total, m, -, hm⟩ := exists_error_of_foldlM h
    exact of_apply hm
  · obtain ⟨total, a, -, ha⟩ := exists_error_of_foldlM h
    exact of_apply ha

theorem of_tax {preTax rate : Decimal} (h : Quote.ofPreTax preTax rate = .error fault) :
    PriceFault fields choices fault := by
  rcases bind_eq_error_iff.1 h with h | ⟨tax, -, h⟩
  · exact of_apply (map_eq_error_iff.1 h)
  · rcases bind_eq_error_iff.1 h with h | ⟨price, -, h⟩
    · exact of_apply h
    · cases h

theorem of_quote {rate : Decimal} (h : Quote.evaluate fields choices rate = .error fault) :
    PriceFault fields choices fault := by
  rcases bind_eq_error_iff.1 h with h | ⟨parts, -, h⟩
  · exact of_breakdown h
  · rcases bind_eq_error_iff.1 h with h | ⟨preTax, -, h⟩
    · exact of_preTax h
    · exact of_tax h

end PriceFault

/-- **Pricing gives a quote or a fault with its cause**, and its tax never fails: of every
    product of rate and price before tax there is a hundredth part.  It is the exact one,
    fitted, and within half a unit of its last place. -/
theorem Quote.evaluate_or_fault (fields : List Field) (choices : List Choice) (rate : Decimal) :
    ((∃ q, evaluate fields choices rate = .ok q) ∨
      ∃ fault, evaluate fields choices rate = .error fault ∧ PriceFault fields choices fault) ∧
    ∀ preTax product : Decimal, Operation.multiply.apply rate preTax = .ok product →
      product.div? Decimal.hundred = some product.hundredth ∧
      taxOn preTax rate = .ok product.hundredth ∧
      product.hundredth.value = Decimal.fitted (product.value / 100) ∧
      |product.hundredth.value - product.value / 100| ≤ 1 / 2 / 10 ^ product.hundredth.scale := by
  constructor
  · cases h : evaluate fields choices rate with
    | ok q => exact .inl ⟨q, rfl⟩
    | error fault => exact .inr ⟨fault, rfl, .of_quote h⟩
  · intro preTax product hproduct
    refine ⟨product.div?_hundred, ?_, product.value_hundredth, product.abs_value_hundredth_sub_le⟩
    rw [taxOn, hproduct, ok_map]

namespace Sample

/-- The greatest coefficient, all of it but one digit behind the point. -/
def finest : Decimal := ⟨false, 2 ^ 96 - 1, 28, by decide, by decide⟩

/-- A figure that needs every digit. -/
def dust : List Field :=
  [{ label := "Dust"
     pricing :=
      { priceBy := .constant, isBasePrice := true
        constant := ⟨"7.9228162514264337593543950335"⟩ } }]

end Sample

/-- One percent of a price with all digits has two digits too many: they are rounded off. -/
theorem evaluate_or_fault_dust :
    Operation.multiply.apply .one Sample.finest = .ok Sample.finest ∧
      Quote.taxOn Sample.finest .one = .ok Sample.finest.hundredth ∧
      Sample.finest.hundredth.magnitude = 792281625142643375935439503 ∧
      |Sample.finest.hundredth.value - Sample.finest.value / 100| ≤ 1 / 2 / 10 ^ 28 ∧
      ∃ q, Quote.evaluate Sample.dust [] .one = .ok q := by
  have hproduct : Operation.multiply.apply .one Sample.finest = .ok Sample.finest := by
    decide +kernel
  obtain ⟨hevaluate, htax⟩ := Quote.evaluate_or_fault Sample.dust [] .one
  obtain ⟨-, hon, -, hnear⟩ := htax Sample.finest Sample.finest hproduct
  have hscale : Sample.finest.hundredth.scale = 28 := by decide +kernel
  rw [hscale] at hnear
  refine ⟨hproduct, hon, by decide +kernel, hnear, ?_⟩
  -- there is no fault: the evaluation runs through
  rcases hevaluate with hquote | ⟨fault, hfault, -⟩
  · exact hquote
  · rw [Quote.evaluate, Breakdown.evaluate, FieldPair.pairByLabel_eq] at hfault
    have hok : ((Breakdown.ofPairs (Sample.dust.map (FieldPair.ofChoices []))) >>= fun b =>
        Quote.ofBreakdown b .one).toOption.isSome = true := by decide +kernel
    rw [hfault] at hok
    cases hok

end PointOfSale

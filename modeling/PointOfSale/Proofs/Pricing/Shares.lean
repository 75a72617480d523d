/-
  PointOfSale/Proofs/Pricing/Shares.lean
  ======================================
  **Contributions are shares.**  Kind by kind, the contribution of a field is its
  share in the exact formula, if the operations that it takes are exact; and a
  field has a contribution exactly when it has a share.
-/
import PointOfSale.Proofs.Pricing.Exactness
import PointOfSale.Proofs.Pricing.Pairing

namespace PointOfSale

def Contribution.share? (factor : String) : Contribution → Option Share
  | .base d => (Operation.ofToken? factor).map (Share.base · d.value)
  | .adder d => some (.adder d.value)
  | .multiplier d => some (.multiplier d.value)

namespace FieldPair

theorem share?_byFactor (p : Pricing) (d : Decimal) :
    (byFactor p d).share? p.factor = some (Share.byFactor p d.value) := by
  unfold byFactor Pricing.isAdditive Share.byFactor
  by_cases hplus : p.factor = "+"
  · simp [hplus, Contribution.share?]
  · simp [hplus, Contribution.share?]

variable {α : Type} {p : FieldPair} {k : Contribution} {chosen : Literal}

theorem choice_bind (hchosen : p.chosen = some chosen) (f : Literal → Except Fault α) :
    (p.choice >>= f) = f chosen := by
  rw [choice, hchosen]
  rfl

theorem exists_chosen {f : Literal → Except Fault α} {a : α} (h : (p.choice >>= f) = .ok a) :
    ∃ chosen, p.chosen = some chosen := by
  cases hchosen : p.chosen with
  | some chosen => exact ⟨chosen, rfl⟩
  | none =>
    rw [choice, hchosen] at h
    cases h

theorem share_of_constant (h : p.constantContribution = .ok k)
    (hexact : ∀ s ∈ p.field.pricing.constant.performed, s.IsExact) :
    Share.ofConstant? p.field.pricing = k.share? p.field.pricing.factor := by
  obtain ⟨d, hd, hk⟩ := bind_eq_ok_iff.1 h
  rw [pure_eq_ok_iff] at hk
  subst hk
  simp only [Share.ofConstant?, Literal.figure?_of_number hd hexact, Option.bind_eq_bind,
    Option.bind_some]
  cases p.field.pricing.isBasePrice with
  | true => rfl
  | false => exact (share?_byFactor _ d).symm

theorem share_of_option (hchosen : p.chosen = some chosen) (h : p.optionContribution = .ok k)
    (hexact : ∀ s ∈ (p.field.pricing.perOption.get? chosen.text).toList.flatMap
      Literal.performed, s.IsExact) :
    Share.ofOption? p.field.pricing chosen = k.share? p.field.pricing.factor := by
  rw [optionContribution, choice_bind hchosen] at h
  have hfigure : ∃ d : Decimal, Share.optionFigure? p.field.pricing chosen = some d.value ∧
      k = if p.field.pricing.isBasePrice then .base d else .adder d := by
    unfold Share.optionFigure?
    rcases hentry : p.field.pricing.perOption.get? chosen.text with _ | l
    · rw [hentry] at h
      cases h
      exact ⟨Decimal.zero, by rw [Decimal.value_zero], rfl⟩
    · rw [hentry] at h hexact
      obtain ⟨d, hd, hk⟩ := bind_eq_ok_iff.1 h
      rw [pure_eq_ok_iff] at hk
      exact ⟨d, Literal.figure?_of_number hd (by simpa using hexact), hk.symm⟩
  obtain ⟨d, hd, rfl⟩ := hfigure
  simp only [Share.ofOption?, hd, Option.bind_eq_bind, Option.bind_some]
  cases p.field.pricing.isBasePrice <;> rfl

theorem share_of_value (hchosen : p.chosen = some chosen) (h : p.valueContribution = .ok k)
    (hexact : ∀ s ∈ chosen.performed, s.IsExact) :
    chosen.figure?.map Share.multiplier = k.share? p.field.pricing.factor := by
  rw [valueContribution, choice_bind hchosen] at h
  obtain ⟨d, hd, hk⟩ := bind_eq_ok_iff.1 h
  rw [pure_eq_ok_iff] at hk
  subst hk
  rw [Literal.figure?_of_number hd hexact]
  rfl

theorem share_of_scaled (hchosen : p.chosen = some chosen) (h : p.scaledContribution = .ok k)
    (hexact : ∀ s ∈ p.field.pricing.constant.performed ++ (chosen.performed ++
      performedAfter p.field.pricing.constant.number fun scale =>
        performedAfter chosen.number fun x => [.apply .multiply x scale]), s.IsExact) :
    (p.field.pricing.constant.figure?.bind fun scale =>
      chosen.figure?.map fun x => Share.multiplier (scale * x)) =
        k.share? p.field.pricing.factor := by
  rw [scaledContribution, choice_bind hchosen] at h
  obtain ⟨scale, hscale, hrest⟩ := bind_eq_ok_iff.1 h
  obtain ⟨x, hx, hrest⟩ := bind_eq_ok_iff.1 hrest
  obtain ⟨product, hproduct, hk⟩ := bind_eq_ok_iff.1 hrest
  rw [pure_eq_ok_iff] at hk
  subst hk
  simp only [List.mem_append, or_imp, forall_and] at hexact
  obtain ⟨hexactScale, hexactChosen, hexactProduct⟩ := hexact
  have hafter := exact_of_performedAfter hexactProduct hscale
  have hlast := exact_of_performedAfter hafter hx
  have hvalue := Operation.value_of_apply hproduct (hlast _ (List.mem_singleton.mpr rfl))
  rw [Literal.figure?_of_number hscale hexactScale, Literal.figure?_of_number hx hexactChosen]
  simp [Contribution.share?, hvalue, Operation.exact]

variable {fields : List Field} {choices : List Choice} {f : Field}

theorem dependencyFigure?_of_resolve {d : PriceDependency} {x : Decimal}
    (h : d.resolve chosen.text (fields.map (ofChoices choices)) = .ok x)
    (hexact : ∀ l ∈ d.entry? chosen.text (fields.map (ofChoices choices)),
      ∀ s ∈ l.performed, s.IsExact) :
    Share.dependencyFigure? fields choices d chosen = some x.value := by
  have hentry : ((if fields.any (·.label = d.source) then chosenValue? choices d.source
      else none).bind fun s => (d.values.get? chosen.text).bind (·.get? s.text)) =
        d.entry? chosen.text (fields.map (ofChoices choices)) := by
    unfold PriceDependency.entry?
    rw [PriceDependency.sourceChoice?_eq]
    rfl
  unfold PriceDependency.resolve at h
  simp only [Share.dependencyFigure?, hentry]
  rcases hfound : d.entry? chosen.text (fields.map (ofChoices choices)) with _ | l
  · rw [hfound] at h
    cases h
    rw [PriceDependency.unresolved, Decimal.value_minusOne]
  · rw [hfound] at h
    exact Literal.figure?_of_number h (hexact l hfound)

theorem share_of_dependency (hchosen : chosenValue? choices f.label = some chosen)
    (h : (ofChoices choices f).dependencyContribution (fields.map (ofChoices choices)) = .ok k)
    (hexact : ∀ s ∈ (f.pricing.dependsOn.bind fun d =>
      d.entry? chosen.text (fields.map (ofChoices choices))).toList.flatMap Literal.performed,
        s.IsExact) :
    Share.ofDependency? fields choices f.pricing chosen = k.share? f.pricing.factor := by
  have hpricing : (ofChoices choices f).field.pricing = f.pricing := rfl
  rw [dependencyContribution, choice_bind hchosen, hpricing] at h
  unfold Share.ofDependency?
  rcases hdepends : f.pricing.dependsOn with _ | d
  · rw [hdepends] at h
    cases h
  · rw [hdepends] at h hexact
    obtain ⟨x, hx, hk⟩ := bind_eq_ok_iff.1 h
    rw [pure_eq_ok_iff] at hk
    subst hk
    have hfigure := dependencyFigure?_of_resolve hx fun l hl s hs =>
      hexact s (List.mem_flatMap.mpr ⟨l, Option.mem_toList.mpr hl, hs⟩)
    simp only [hfigure, Option.bind_eq_bind, Option.bind_some]
    exact (share?_byFactor _ x).symm

/-! ### Fields with and without a share -/

/-- The contribution of a field is its share. -/
theorem share_of_contribution
    (h : (ofChoices choices f).contribution (fields.map (ofChoices choices)) = .ok (some k))
    (hexact : ∀ s ∈ (ofChoices choices f).performed (fields.map (ofChoices choices)), s.IsExact) :
    (f.pricing.affectsPrice ∧ f.pricing.priceBy ≠ .unpriced) ∧
      Share.ofActive? fields choices f = k.share? f.pricing.factor := by
  have haffects : f.pricing.affectsPrice = true := by
    by_contra hnot
    simp [contribution, ofChoices, hnot] at h
  have hfield : (ofChoices choices f).field = f := rfl
  simp only [contribution, hfield, haffects, if_true] at h
  simp only [performed, hfield, haffects, if_true] at hexact
  cases hby : f.pricing.priceBy with
  | constant =>
    simp only [hby, map_eq_ok_iff, Option.some.injEq, exists_eq_right] at h hexact
    refine ⟨⟨haffects, by simp⟩, ?_⟩
    simp only [Share.ofActive?, hby]
    exact share_of_constant (p := ofChoices choices f) h hexact
  | input =>
    simp only [hby, map_eq_ok_iff, Option.some.injEq, exists_eq_right] at h hexact
    refine ⟨⟨haffects, by simp⟩, ?_⟩
    simp only [Share.ofActive?, hby]
    exact share_of_constant (p := ofChoices choices f) h hexact
  | perOption =>
    simp only [hby, map_eq_ok_iff, Option.some.injEq, exists_eq_right] at h hexact
    obtain ⟨chosen, hchosen⟩ := exists_chosen h
    have hvalue : chosenValue? choices f.label = some chosen := hchosen
    rw [hchosen, Option.toList_some, List.flatMap_singleton] at hexact
    refine ⟨⟨haffects, by simp⟩, ?_⟩
    simp only [Share.ofActive?, hby, hvalue, Option.bind_eq_bind, Option.bind_some]
    exact share_of_option (p := ofChoices choices f) hchosen h hexact
  | optionValue =>
    simp only [hby, map_eq_ok_iff, Option.some.injEq, exists_eq_right] at h hexact
    obtain ⟨chosen, hchosen⟩ := exists_chosen h
    have hvalue : chosenValue? choices f.label = some chosen := hchosen
    rw [hchosen, Option.toList_some, List.flatMap_singleton] at hexact
    refine ⟨⟨haffects, by simp⟩, ?_⟩
    simp only [Share.ofActive?, hby, hvalue, Option.bind_eq_bind, Option.bind_some]
    exact share_of_value (p := ofChoices choices f) hchosen h hexact
  | scaledOptionValue =>
    simp only [hby, map_eq_ok_iff, Option.some.injEq, exists_eq_right] at h hexact
    obtain ⟨chosen, hchosen⟩ := exists_chosen h
    have hvalue : chosenValue? choices f.label = some chosen := hchosen
    rw [hchosen, Option.toList_some, List.flatMap_singleton] at hexact
    refine ⟨⟨haffects, by simp⟩, ?_⟩
    simp only [Share.ofActive?, hby, hvalue, Option.bind_eq_bind, Option.bind_some]
    exact share_of_scaled (p := ofChoices choices f) hchosen h hexact
  | dependency =>
    simp only [hby, map_eq_ok_iff, Option.some.injEq, exists_eq_right] at h hexact
    obtain ⟨chosen, hchosen⟩ := exists_chosen h
    have hvalue : chosenValue? choices f.label = some chosen := hchosen
    rw [hchosen, Option.toList_some, List.flatMap_singleton] at hexact
    refine ⟨⟨haffects, by simp⟩, ?_⟩
    simp only [Share.ofActive?, hby, hvalue, Option.bind_eq_bind, Option.bind_some]
    exact share_of_dependency hvalue h hexact
  | unpriced =>
    rw [hby] at h
    cases h

theorem inactive_of_contribution {p : FieldPair} {all : List FieldPair}
    (h : p.contribution all = .ok none) :
    ¬(p.field.pricing.affectsPrice ∧ p.field.pricing.priceBy ≠ .unpriced) := by
  rintro ⟨haffects, hpriced⟩
  simp only [contribution, haffects, if_true] at h
  cases hby : p.field.pricing.priceBy <;> simp [hby, map_eq_ok_iff] at h hpriced

end FieldPair

end PointOfSale

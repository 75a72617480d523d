/-
  PointOfSale/Proofs/Pricing/Refinement.lean
  ==========================================
  **A quote follows the price formula.**  An evaluation takes the fields in tiers and
  collects multipliers and adders; the formula walks the fields once as they are
  declared.  Where no operation loses a digit both give the same price, tax and
  subtotal (`evaluate_eq_formula`).

  The order of the tiers does not show: products and sums do not depend on the order,
  and base figures, whose order counts, all stand in one tier.
-/
import Mathlib.Algebra.BigOperators.Group.List.Basic
import Mathlib.Data.List.Perm.Basic
import PointOfSale.Proofs.Decimal.Cents
import PointOfSale.Proofs.Pricing.Shares

namespace PointOfSale

/-! ### The order of shares -/

namespace Share

def onBase (b : ℚ) : Share → ℚ
  | base op x => op.exact x b
  | adder _ | multiplier _ => b

def scale : Share → ℚ
  | multiplier x => x
  | base _ _ | adder _ => 1

def addend : Share → ℚ
  | adder x => x
  | base _ _ | multiplier _ => 0

def isBase : Share → Bool
  | base _ _ => true
  | adder _ | multiplier _ => false

theorem foldl_onBase_filter (shares : List Share) (b : ℚ) :
    (shares.filter isBase).foldl onBase b = shares.foldl onBase b := by
  induction shares generalizing b with
  | nil => rfl
  | cons s shares ih => cases s <;> simp [List.filter_cons, isBase, onBase, ih]

end Share

namespace PriceParts

theorem foldl_take (shares : List Share) (parts : PriceParts) :
    shares.foldl take parts =
      { base := shares.foldl Share.onBase parts.base
        product := parts.product * (shares.map Share.scale).prod
        sum := parts.sum + (shares.map Share.addend).sum } := by
  induction shares generalizing parts with
  | nil => simp
  | cons s shares ih =>
    rw [List.foldl_cons, ih]
    cases s <;> simp [take, Share.onBase, Share.scale, Share.addend, mul_assoc, add_assoc]

/-- The order of the shares counts for those of the base only. -/
theorem foldl_take_perm {a b : List Share} (hperm : a.Perm b)
    (hbase : a.filter Share.isBase = b.filter Share.isBase) (parts : PriceParts) :
    a.foldl take parts = b.foldl take parts := by
  rw [foldl_take, foldl_take, ← Share.foldl_onBase_filter a, hbase, Share.foldl_onBase_filter b,
    (hperm.map Share.scale).prod_eq, (hperm.map Share.addend).sum_eq]

end PriceParts

/-! ### Tiers -/

theorem Breakdown.inTiers_eq (pairs : List FieldPair) :
    inTiers pairs = pairs.filter (·.field.pricing.priceBy.tier = .fixed) ++
      (pairs.filter (·.field.pricing.priceBy.tier = .derived) ++
        pairs.filter (·.field.pricing.priceBy.tier = .chosen)) := by
  simp [inTiers, PriceTier.all]

/-- The order of evaluation keeps every pair, once. -/
theorem Breakdown.inTiers_perm (pairs : List FieldPair) : (inTiers pairs).Perm pairs := by
  rw [inTiers_eq]
  induction pairs with
  | nil => rfl
  | cons p pairs ih =>
    cases htier : p.field.pricing.priceBy.tier with
    | fixed => simpa [htier] using ih.cons p
    | derived => simpa [htier] using List.perm_middle.trans (ih.cons p)
    | chosen =>
      have hmiddle := ih.cons p
      rw [← List.append_assoc] at hmiddle
      simpa [htier] using List.perm_middle.trans hmiddle

/-- Base figures come from fixed figures only. -/
theorem FieldPair.tier_of_base {p : FieldPair} {all : List FieldPair} {d : Decimal}
    (h : p.contribution all = .ok (some (.base d))) :
    p.field.pricing.priceBy.tier = .fixed := by
  have haffects : p.field.pricing.affectsPrice = true := by
    by_contra hnot
    simp [contribution, hnot] at h
  simp only [contribution, haffects, if_true] at h
  cases hby : p.field.pricing.priceBy with
  | constant | perOption | input | unpriced => rfl
  | optionValue =>
    simp only [hby, map_eq_ok_iff, Option.some.injEq, exists_eq_right] at h
    obtain ⟨_, -, h⟩ := bind_eq_ok_iff.1 h
    obtain ⟨_, -, h⟩ := bind_eq_ok_iff.1 h
    cases h
  | scaledOptionValue =>
    simp only [hby, map_eq_ok_iff, Option.some.injEq, exists_eq_right] at h
    obtain ⟨_, -, h⟩ := bind_eq_ok_iff.1 h
    obtain ⟨_, -, h⟩ := bind_eq_ok_iff.1 h
    obtain ⟨_, -, h⟩ := bind_eq_ok_iff.1 h
    obtain ⟨_, -, h⟩ := bind_eq_ok_iff.1 h
    cases h
  | dependency =>
    simp only [hby, map_eq_ok_iff, Option.some.injEq, exists_eq_right] at h
    obtain ⟨_, -, h⟩ := bind_eq_ok_iff.1 h
    split at h
    · cases h
    · obtain ⟨x, -, h⟩ := bind_eq_ok_iff.1 h
      rw [pure_eq_ok_iff, byFactor] at h
      split at h <;> cases h

/-! ### Both walks -/

def FieldPair.shareAmong? (all : List FieldPair) (p : FieldPair) : Option Share :=
  match p.contribution all with
  | .ok (some k) => k.share? p.field.pricing.factor
  | _ => none

theorem FieldPair.tier_of_isBase {p : FieldPair} {all : List FieldPair} {s : Share}
    (h : p.shareAmong? all = some s) (hbase : s.isBase = true) :
    p.field.pricing.priceBy.tier = .fixed := by
  unfold shareAmong? at h
  split at h
  · rename_i k hk
    cases k with
    | base d => exact tier_of_base hk
    | adder d | multiplier d =>
      cases h
      cases hbase
  · cases h

namespace Breakdown

variable {all : List FieldPair}

theorem filter_isBase_inTiers (pairs : List FieldPair) :
    ((inTiers pairs).filterMap (FieldPair.shareAmong? all)).filter Share.isBase =
      (pairs.filterMap (FieldPair.shareAmong? all)).filter Share.isBase := by
  have hnone : ∀ p : FieldPair, p.field.pricing.priceBy.tier ≠ .fixed →
      (p.shareAmong? all).filter Share.isBase = none := by
    intro p htier
    rw [Option.filter_eq_none_iff]
    intro s hs hbase
    exact htier (FieldPair.tier_of_isBase hs hbase)
  have hfixed : (pairs.filter (·.field.pricing.priceBy.tier = .fixed)).filterMap
      (fun p => (p.shareAmong? all).filter Share.isBase) =
        pairs.filterMap fun p => (p.shareAmong? all).filter Share.isBase := by
    rw [List.filterMap_filter]
    refine List.filterMap_congr fun p _ => ?_
    by_cases htier : p.field.pricing.priceBy.tier = .fixed
    · simp [htier]
    · simp [htier, hnone p htier]
  have hother : ∀ tier, tier ≠ .fixed →
      (pairs.filter (·.field.pricing.priceBy.tier = tier)).filterMap
        (fun p => (p.shareAmong? all).filter Share.isBase) = [] := by
    intro tier htier
    rw [List.filterMap_eq_nil_iff]
    intro p hp
    have hp' : p.field.pricing.priceBy.tier = tier := by simpa using (List.mem_filter.mp hp).2
    exact hnone p (by rwa [hp'])
  rw [List.filter_filterMap, List.filter_filterMap, inTiers_eq, List.filterMap_append,
    List.filterMap_append, hfixed, hother .derived (by decide), hother .chosen (by decide)]
  simp

/-- In whichever order the pairs are taken, the shares make up one price. -/
theorem foldl_take_inTiers (pairs : List FieldPair) (parts : PriceParts) :
    ((inTiers pairs).filterMap (FieldPair.shareAmong? all)).foldl PriceParts.take parts =
      (pairs.filterMap (FieldPair.shareAmong? all)).foldl PriceParts.take parts :=
  PriceParts.foldl_take_perm ((inTiers_perm pairs).filterMap _) (filter_isBase_inTiers pairs) parts

/-- The numbers that the parts of a price stand for. -/
def parts (b : Breakdown) : PriceParts :=
  { base := b.base.value
    product := (b.multipliers.map Decimal.value).prod
    sum := (b.adders.map Decimal.value).sum }

/-- A pair has been evaluated: without a contribution, or with one that is a share. -/
def Evaluated (all : List FieldPair) (p : FieldPair) : Prop :=
  p.contribution all = .ok none ∨
    ∃ k share, p.contribution all = .ok (some k) ∧ k.share? p.field.pricing.factor = some share

theorem combine_exact {b next : Breakdown} {factor : String} {k : Contribution}
    (h : b.combine factor k = .ok next)
    (hexact : ∀ d op, k = .base d → Operation.ofToken? factor = some op →
      (DecimalStep.apply op d b.base).IsExact) :
    ∃ share, k.share? factor = some share ∧ next.parts = b.parts.take share := by
  cases k with
  | base d =>
    obtain ⟨op, hop, hrest⟩ := bind_eq_ok_iff.1 h
    obtain ⟨base, hbase, hnext⟩ := bind_eq_ok_iff.1 hrest
    rw [pure_eq_ok_iff] at hnext
    subst hnext
    have htoken : Operation.ofToken? factor = some op := Operation.parse_eq_ok_iff.1 hop
    have hvalue := Operation.value_of_apply hbase (hexact d op rfl htoken)
    refine ⟨.base op d.value, by simp [Contribution.share?, htoken], ?_⟩
    simp [parts, PriceParts.take, hvalue]
  | adder d =>
    cases h
    exact ⟨.adder d.value, rfl, by simp [parts, PriceParts.take]⟩
  | multiplier d =>
    cases h
    exact ⟨.multiplier d.value, rfl, by simp [parts, PriceParts.take]⟩

/-- **One field taken in exactly** takes its share into the parts. -/
theorem step_exact {b next : Breakdown} {p : FieldPair} (h : step all b p = .ok next)
    (hexact : ∀ s ∈ stepPerformed all b p, s.IsExact) :
    Evaluated all p ∧
      next.parts = (p.shareAmong? all).elim b.parts b.parts.take := by
  obtain ⟨c, hc, hrest⟩ := bind_eq_ok_iff.1 h
  cases c with
  | none =>
    cases hrest
    exact ⟨Or.inl hc, by simp [FieldPair.shareAmong?, hc]⟩
  | some k =>
    have hbase : ∀ d op, k = .base d → Operation.ofToken? p.field.pricing.factor = some op →
        (DecimalStep.apply op d b.base).IsExact := by
      rintro d op rfl hop
      refine hexact _ (List.mem_append_right _ ?_)
      simp [hc, hop]
    obtain ⟨share, hshare, hparts⟩ := combine_exact hrest hbase
    refine ⟨Or.inr ⟨k, share, hc, hshare⟩, ?_⟩
    simp [FieldPair.shareAmong?, hc, hshare, hparts]

theorem foldlM_exact {ps : List FieldPair} {b last : Breakdown}
    (h : ps.foldlM (step all) b = .ok last)
    (hexact : ∀ s ∈ performedAlong (stepPerformed all) (step all) b ps, s.IsExact) :
    (∀ p ∈ ps, Evaluated all p ∧ ∀ s ∈ p.performed all, s.IsExact) ∧
      last.parts = (ps.filterMap (FieldPair.shareAmong? all)).foldl PriceParts.take b.parts := by
  induction ps generalizing b with
  | nil =>
    cases h
    exact ⟨by simp, rfl⟩
  | cons p ps ih =>
    rw [List.foldlM_cons, bind_eq_ok_iff] at h
    obtain ⟨next, hnext, hrest⟩ := h
    obtain ⟨hfirst, hothers⟩ := exact_of_performedAlong_cons hexact hnext
    obtain ⟨hevaluated, hparts⟩ := step_exact hnext hfirst
    obtain ⟨hall, hlast⟩ := ih hrest hothers
    refine ⟨?_, ?_⟩
    · rintro q hq
      rcases List.mem_cons.mp hq with rfl | hq
      · exact ⟨hevaluated, fun s hs => hfirst s (List.mem_append_left _ hs)⟩
      · exact hall q hq
    · rw [hlast, hparts]
      cases hshare : p.shareAmong? all <;> simp [hshare]

end Breakdown

/-! ### The formula -/

namespace PriceParts

variable {fields : List Field} {choices : List Choice}

/-- The formula takes a field in as its share, where the field has been evaluated exactly. -/
theorem step_of_evaluated {f : Field}
    (hevaluated : Breakdown.Evaluated (fields.map (FieldPair.ofChoices choices))
      (FieldPair.ofChoices choices f))
    (hexact : ∀ s ∈ (FieldPair.ofChoices choices f).performed
      (fields.map (FieldPair.ofChoices choices)), s.IsExact) (parts : PriceParts) :
    step fields choices parts f =
      some (((FieldPair.ofChoices choices f).shareAmong?
        (fields.map (FieldPair.ofChoices choices))).elim parts parts.take) := by
  rcases hevaluated with hnone | ⟨k, share, hk, hshare⟩
  · have hinactive := FieldPair.inactive_of_contribution hnone
    simp only [FieldPair.shareAmong?, hnone, Option.elim_none]
    exact if_neg hinactive
  · obtain ⟨hactive, hsame⟩ := FieldPair.share_of_contribution hk hexact
    have hfield : k.share? f.pricing.factor = some share := hshare
    simp only [FieldPair.shareAmong?, hk, hshare, Option.elim_some]
    rw [step, if_pos hactive, hsame, hfield]
    rfl

theorem foldlM_step_of_evaluated {walked : List Field}
    (hwalked : ∀ f ∈ walked, Breakdown.Evaluated (fields.map (FieldPair.ofChoices choices))
        (FieldPair.ofChoices choices f) ∧
      ∀ s ∈ (FieldPair.ofChoices choices f).performed
        (fields.map (FieldPair.ofChoices choices)), s.IsExact) (parts : PriceParts) :
    walked.foldlM (step fields choices) parts =
      some (((walked.map (FieldPair.ofChoices choices)).filterMap
        (FieldPair.shareAmong? (fields.map (FieldPair.ofChoices choices)))).foldl take parts) := by
  induction walked generalizing parts with
  | nil => rfl
  | cons f walked ih =>
    obtain ⟨hevaluated, hexact⟩ := hwalked f List.mem_cons_self
    rw [List.foldlM_cons, step_of_evaluated hevaluated hexact, Option.bind_eq_bind,
      Option.bind_some, ih fun g hg => hwalked g (List.mem_cons_of_mem f hg), List.map_cons]
    cases hshare : (FieldPair.ofChoices choices f).shareAmong?
      (fields.map (FieldPair.ofChoices choices)) <;> simp [hshare]

end PriceParts

theorem Breakdown.parts_eq_formula {fields : List Field} {choices : List Choice} {b : Breakdown}
    (h : evaluate fields choices = .ok b)
    (hexact : ∀ s ∈ performed (FieldPair.pairByLabel fields choices), s.IsExact) :
    PriceParts.ofFields? fields choices = some b.parts := by
  rw [evaluate, FieldPair.pairByLabel_eq] at h
  rw [FieldPair.pairByLabel_eq] at hexact
  obtain ⟨hevaluated, hparts⟩ := foldlM_exact h hexact
  have hwalked : ∀ f ∈ fields, Evaluated (fields.map (FieldPair.ofChoices choices))
      (FieldPair.ofChoices choices f) ∧
        ∀ s ∈ (FieldPair.ofChoices choices f).performed
          (fields.map (FieldPair.ofChoices choices)), s.IsExact := by
    intro f hf
    exact hevaluated _ ((inTiers_perm _).mem_iff.mpr (List.mem_map_of_mem hf))
  have hempty : Breakdown.parts {} = {} := by simp [parts]
  rw [PriceParts.ofFields?, PriceParts.foldlM_step_of_evaluated hwalked, hparts,
    foldl_take_inTiers, hempty]

theorem Breakdown.value_preTax {b : Breakdown} {x : Decimal} (h : b.preTax = .ok x)
    (hexact : ∀ s ∈ b.preTaxPerformed, s.IsExact) : x.value = b.parts.preTax := by
  obtain ⟨scaled, hscaled, hsum⟩ := bind_eq_ok_iff.1 h
  have hproductExact : ∀ s ∈ foldPerformed .multiply b.base b.multipliers, s.IsExact :=
    fun s hs => hexact s (List.mem_append_left _ hs)
  have hsumExact := exact_of_performedAfter
    (fun s hs => hexact s (List.mem_append_right _ hs)) hscaled
  have hmultiply : ∀ (xs : List ℚ) (x : ℚ),
      xs.foldl (fun x y => Operation.multiply.exact y x) x = x * xs.prod := by
    intro xs
    induction xs with
    | nil => simp
    | cons y xs ih =>
      intro x
      rw [List.foldl_cons, ih, List.prod_cons, Operation.exact, mul_assoc]
  have hadd : ∀ (xs : List ℚ) (x : ℚ),
      xs.foldl (fun x y => Operation.add.exact y x) x = x + xs.sum := by
    intro xs
    induction xs with
    | nil => simp
    | cons y xs ih =>
      intro x
      rw [List.foldl_cons, ih, List.sum_cons, Operation.exact, add_assoc]
  rw [value_of_fold hsum hsumExact, hadd, value_of_fold hscaled hproductExact, hmultiply]
  rfl

namespace Quote

def exact (q : Quote) : ExactQuote :=
  { price := q.price.value, tax := q.tax.value, subtotal := q.subtotal.value }

theorem value_taxOn {preTax rate tax : Decimal} (h : taxOn preTax rate = .ok tax)
    (hexact : ∀ s ∈ taxPerformed preTax rate, s.IsExact) :
    tax.value = preTax.value * rate.value / 100 := by
  obtain ⟨product, hproduct, rfl⟩ := map_eq_ok_iff.1 h
  have hmultiply := Operation.value_of_apply hproduct (hexact _ List.mem_cons_self)
  have hafter := exact_of_performedAfter
    (fun s hs => hexact s (List.mem_cons_of_mem _ hs)) hproduct
  have hhundredth : product.hundredth.value = product.value / Decimal.hundred.value :=
    hafter _ List.mem_cons_self _ (Option.get_mem _)
  rw [hhundredth, hmultiply, Decimal.value_hundred]
  rfl

theorem exact_ofPreTax {preTax rate : Decimal} {q : Quote} (h : ofPreTax preTax rate = .ok q)
    (hexact : ∀ s ∈ taxPerformed preTax rate, s.IsExact) :
    q.exact = ExactQuote.ofPreTax preTax.value rate.value := by
  obtain ⟨tax, htax, hrest⟩ := bind_eq_ok_iff.1 h
  obtain ⟨price, hprice, hq⟩ := bind_eq_ok_iff.1 hrest
  rw [pure_eq_ok_iff] at hq
  subst hq
  have htaxValue := value_taxOn htax hexact
  have hpriceValue : price.value = preTax.value + tax.value := by
    obtain ⟨product, hproduct, rfl⟩ := map_eq_ok_iff.1 htax
    have hafter := exact_of_performedAfter
      (fun s hs => hexact s (List.mem_cons_of_mem _ hs)) hproduct
    exact Operation.value_of_apply hprice
      (hafter _ (List.mem_cons_of_mem _ (List.mem_singleton.mpr rfl)))
  simp only [exact, ExactQuote.ofPreTax, nearestCents, value_roundMoney, Decimal.value_atLeast,
    Decimal.value_zero, hpriceValue, htaxValue, max_comm (0 : ℚ)]

/-- **A quote is what the formula gives.**  An evaluation that succeeds and loses no digit
    has the price, the tax and the subtotal of one walk over the fields in exact numbers. -/
theorem evaluate_eq_formula {fields : List Field} {choices : List Choice} {rate : Decimal}
    {q : Quote} (h : evaluate fields choices rate = .ok q) (hexact : IsExact fields choices rate) :
    ExactQuote.ofFields? fields choices rate.value = some q.exact := by
  obtain ⟨b, hb, hrest⟩ := bind_eq_ok_iff.1 h
  obtain ⟨preTax, hpreTax, hq⟩ := bind_eq_ok_iff.1 hrest
  have hfirst : ∀ s ∈ Breakdown.performed (FieldPair.pairByLabel fields choices), s.IsExact :=
    fun s hs => hexact s (List.mem_append_left _ hs)
  have hthen := exact_of_performedAfter
    (fun s hs => hexact s (List.mem_append_right _ hs)) hb
  have hfold : ∀ s ∈ b.preTaxPerformed, s.IsExact :=
    fun s hs => hthen s (List.mem_append_left _ hs)
  have htax := exact_of_performedAfter
    (fun s hs => hthen s (List.mem_append_right _ hs)) hpreTax
  rw [ExactQuote.ofFields?, Breakdown.parts_eq_formula hb hfirst, exact_ofPreTax hq htax,
    Breakdown.value_preTax hpreTax hfold]
  rfl

end Quote

namespace Sample

/-- A pizza: its sauce is priced by size, the size is the base price. -/
def pizza : List Field :=
  [{ label := "Sauce"
     pricing :=
      { priceBy := .dependency
        dependsOn := some
          { source := "Size", values := .ofList [("Hot", .ofList [("Large", ⟨"0.50"⟩)])] } } },
    { label := "Pieces", pricing := { priceBy := .optionValue } },
    { label := "Size"
      pricing :=
        { priceBy := .perOption, isBasePrice := true
          perOption := .ofList [("Large", ⟨"9.99"⟩)] } },
    { label := "Box", pricing := { priceBy := .constant, constant := ⟨"(1 / 4)"⟩ } }]

def pizzaChoices : List Choice :=
  [⟨"Size", ⟨"Large"⟩⟩, ⟨"Sauce", ⟨"Hot"⟩⟩, ⟨"Pieces", ⟨"3"⟩⟩]

def pizzaRate : Decimal := ⟨false, 75, 1, by decide, by decide⟩

end Sample

/-- Three large pizzas with hot sauce are 9.99 × 3 + 0.50 + 0.25 before tax. -/
theorem pizza_eq_formula :
    ∃ q, Quote.evaluate Sample.pizza Sample.pizzaChoices Sample.pizzaRate = .ok q ∧
      ExactQuote.ofFields? Sample.pizza Sample.pizzaChoices Sample.pizzaRate.value =
        some q.exact ∧
      q.exact = { price := 33.02, tax := 2.30, subtotal := 30.72 } := by
  have hok : ∃ q, Quote.evaluate Sample.pizza Sample.pizzaChoices Sample.pizzaRate = .ok q ∧
      q.exact = { price := 33.02, tax := 2.30, subtotal := 30.72 } := by
    rw [Quote.evaluate, Breakdown.evaluate, FieldPair.pairByLabel_eq]
    exact ⟨⟨⟨false, 3302, 2, by decide, by decide⟩, ⟨false, 230, 2, by decide, by decide⟩,
      ⟨false, 3072, 2, by decide, by decide⟩⟩, by decide +kernel, by decide +kernel⟩
  have hexact : Quote.IsExact Sample.pizza Sample.pizzaChoices Sample.pizzaRate := by
    rw [Quote.IsExact, Quote.performed, Breakdown.evaluate, FieldPair.pairByLabel_eq]
    decide +kernel
  obtain ⟨q, hq, hvalue⟩ := hok
  exact ⟨q, hq, Quote.evaluate_eq_formula hq hexact, hvalue⟩

end PointOfSale

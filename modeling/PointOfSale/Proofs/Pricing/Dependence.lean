/-
  PointOfSale/Proofs/Pricing/Dependence.lean
  ==========================================
  **What a price depends on.**  Only active fields are taken in, each in its tier, and
  of the choices a field reads at most the one for its own label and the one for the
  label that it depends on.  So two evaluations agree, down to the fault, where they
  have the same active fields in each tier and where these read the same
  (`Breakdown.evaluate_congr`).  Three consequences:

    * fields may be declared in any order that keeps the one within each tier
      (`evaluate_of_reordered`);
    * choices count by their first value for a relevant label, and for nothing else
      (`evaluate_noninterference`, first part);
    * an inactive field counts as a source of dependencies, and for nothing else
      (`evaluate_noninterference`, second part).
-/
import Mathlib.Data.List.Perm.Basic
import PointOfSale.Pricing
import PointOfSale.Proofs.Checked
import PointOfSale.Proofs.Pricing.Pairing

namespace PointOfSale

/-! ### What one field reads -/

/-- What was chosen for a label, if there is a field with that label. -/
def sourceValue? (fields : List Field) (choices : List Choice) (label : String) :
    Option Literal :=
  if fields.any (·.label = label) then chosenValue? choices label else none

/-- A field finds the same in two evaluations: the choice for its own label, where it looks
    at it, and the choice for the label that it depends on. -/
structure ReadsSame (fields other : List Field) (a b : List Choice) (f : Field) : Prop where
  own : f.pricing.priceBy.readsChoice → chosenValue? a f.label = chosenValue? b f.label
  source : f.pricing.priceBy = .dependency → ∀ d ∈ f.pricing.dependsOn,
    sourceValue? fields a d.source = sourceValue? other b d.source

variable {fields other : List Field} {a b : List Choice} {f : Field}

theorem PriceDependency.resolve_congr {d : PriceDependency}
    (h : sourceValue? fields a d.source = sourceValue? other b d.source) (current : String) :
    d.resolve current (fields.map (FieldPair.ofChoices a)) =
      d.resolve current (other.map (FieldPair.ofChoices b)) := by
  have hsource : d.sourceChoice? (fields.map (FieldPair.ofChoices a)) =
      d.sourceChoice? (other.map (FieldPair.ofChoices b)) := by
    rw [sourceChoice?_eq, sourceChoice?_eq]
    exact h
  unfold resolve entry?
  rw [hsource]

namespace FieldPair

theorem contribution_of_inactive {p : FieldPair} (h : p.field.pricing.isActive = false)
    (all : List FieldPair) : p.contribution all = .ok none := by
  unfold contribution
  cases haffects : p.field.pricing.affectsPrice with
  | false => rfl
  | true =>
    have hunpriced : p.field.pricing.priceBy = .unpriced := by
      simpa [Pricing.isActive, haffects] using h
    rw [hunpriced]
    rfl

/-- Contributions agree where the fields read the same. -/
theorem contribution_congr (h : ReadsSame fields other a b f) :
    (ofChoices a f).contribution (fields.map (ofChoices a)) =
      (ofChoices b f).contribution (other.map (ofChoices b)) := by
  have hsame : f.pricing.priceBy.readsChoice → ofChoices a f = ofChoices b f := by
    intro hreads
    rw [ofChoices, ofChoices, h.own hreads]
  by_cases haffects : f.pricing.affectsPrice = true
  · simp only [contribution, field_ofChoices, haffects, if_true]
    cases hby : f.pricing.priceBy with
    | constant | input | unpriced => rfl
    | perOption | optionValue | scaledOptionValue => rw [hsame (by rw [hby]; rfl)]
    | dependency =>
      rw [hsame (by rw [hby]; rfl)]
      simp only [dependencyContribution, field_ofChoices]
      cases hdepends : f.pricing.dependsOn with
      | none => rfl
      | some d =>
        have hresolve := PriceDependency.resolve_congr (h.source hby d hdepends)
        simp only [hresolve]
  · simp only [contribution, field_ofChoices, haffects, Bool.false_eq_true, if_false]

end FieldPair

/-! ### The walk over the active fields -/

namespace Breakdown

/-- The active fields in the order of evaluation. -/
def activeInTiers (fields : List Field) : List Field :=
  PriceTier.all.flatMap fun tier =>
    fields.filter fun f => f.pricing.isActive && decide (f.pricing.priceBy.tier = tier)

def takeField (fields : List Field) (choices : List Choice) (parts : Breakdown) (f : Field) :
    Except Fault Breakdown :=
  step (fields.map (FieldPair.ofChoices choices)) parts (FieldPair.ofChoices choices f)

theorem inTiers_map (choices : List Choice) (fields : List Field) :
    inTiers (fields.map (FieldPair.ofChoices choices)) =
      (PriceTier.all.flatMap fun tier => fields.filter (·.pricing.priceBy.tier = tier)).map
        (FieldPair.ofChoices choices) := by
  rw [inTiers, List.map_flatMap]
  refine List.flatMap_congr fun tier _ => ?_
  rw [List.filter_map]
  rfl

theorem takeField_of_inactive (h : f.pricing.isActive = false) (choices : List Choice)
    (parts : Breakdown) : takeField fields choices parts f = .ok parts := by
  rw [takeField, step, FieldPair.contribution_of_inactive h]
  rfl

/-- Inactive fields are passed over. -/
theorem foldlM_takeField_filter (walked : List Field) (choices : List Choice)
    (parts : Breakdown) :
    (walked.filter (·.pricing.isActive)).foldlM (takeField fields choices) parts =
      walked.foldlM (takeField fields choices) parts := by
  rw [List.foldlM_filter]
  refine foldlM_congr fun f _ parts => ?_
  split
  · rfl
  · rename_i hinactive
    exact (takeField_of_inactive (by simpa using hinactive) choices parts).symm

/-- An evaluation walks over the active fields, tier by tier. -/
theorem evaluate_eq_foldlM (fields : List Field) (choices : List Choice) :
    evaluate fields choices = (activeInTiers fields).foldlM (takeField fields choices) {} := by
  have hactive : activeInTiers fields =
      (PriceTier.all.flatMap fun tier => fields.filter (·.pricing.priceBy.tier = tier)).filter
        (·.pricing.isActive) := by
    rw [activeInTiers, List.filter_flatMap]
    refine List.flatMap_congr fun tier _ => ?_
    rw [List.filter_filter]
  rw [hactive, foldlM_takeField_filter, evaluate, FieldPair.pairByLabel_eq, ofPairs, inTiers_map,
    List.foldlM_map]
  rfl

theorem takeField_congr (h : ReadsSame fields other a b f) (parts : Breakdown) :
    takeField fields a parts f = takeField other b parts f := by
  rw [takeField, takeField, step, step, FieldPair.contribution_congr h]
  rfl

/-- **The same active fields that read the same** give the same parts of a price, or the
    same fault. -/
theorem evaluate_congr (hactive : activeInTiers fields = activeInTiers other)
    (hreads : ∀ f ∈ fields, f.pricing.isActive → ReadsSame fields other a b f) :
    evaluate fields a = evaluate other b := by
  rw [evaluate_eq_foldlM, evaluate_eq_foldlM, ← hactive]
  apply foldlM_congr
  intro f hf parts
  obtain ⟨tier, -, hf⟩ := List.mem_flatMap.mp hf
  obtain ⟨hmem, hpriced⟩ := List.mem_filter.mp hf
  rw [Bool.and_eq_true] at hpriced
  exact takeField_congr (hreads f hmem hpriced.1) parts

end Breakdown

theorem Quote.evaluate_of_breakdown
    (h : Breakdown.evaluate fields a = Breakdown.evaluate other b) (rate : Decimal) :
    evaluate fields a rate = evaluate other b rate := by
  rw [evaluate, evaluate, h]

/-! ### The order of declaration -/

/-- The same fields in another order, which is the same within each tier. -/
structure ReorderedInTiers (fields other : List Field) : Prop where
  perm : fields.Perm other
  tiers : ∀ tier, fields.filter (·.pricing.priceBy.tier = tier) =
    other.filter (·.pricing.priceBy.tier = tier)

theorem ReorderedInTiers.activeInTiers_eq (h : ReorderedInTiers fields other) :
    Breakdown.activeInTiers fields = Breakdown.activeInTiers other := by
  unfold Breakdown.activeInTiers
  refine List.flatMap_congr fun tier _ => ?_
  rw [← List.filter_filter, ← List.filter_filter, h.tiers tier]

theorem sourceValue?_of_perm (h : fields.Perm other) (choices : List Choice) (label : String) :
    sourceValue? fields choices label = sourceValue? other choices label := by
  rw [sourceValue?, sourceValue?, h.any_eq]

/-- **Declaration order matters only inside a tier.**  Any other order of the fields gives
    the same parts of the price, the same quote and the same dependencies, or the same
    fault. -/
theorem evaluate_of_reordered (h : ReorderedInTiers fields other) (choices : List Choice)
    (rate : Decimal) :
    Breakdown.evaluate fields choices = Breakdown.evaluate other choices ∧
    Quote.evaluate fields choices rate = Quote.evaluate other choices rate ∧
    ∀ (d : PriceDependency) (current : String),
      d.resolve current (FieldPair.pairByLabel fields choices) =
        d.resolve current (FieldPair.pairByLabel other choices) := by
  have hsource := sourceValue?_of_perm h.perm choices
  have hparts : Breakdown.evaluate fields choices = Breakdown.evaluate other choices := by
    apply Breakdown.evaluate_congr h.activeInTiers_eq
    intro f _ _
    exact ⟨fun _ => rfl, fun _ d _ => hsource d.source⟩
  refine ⟨hparts, Quote.evaluate_of_breakdown hparts rate, ?_⟩
  intro d current
  rw [FieldPair.pairByLabel_eq, FieldPair.pairByLabel_eq]
  exact d.resolve_congr (hsource d.source) current

namespace Sample

def shots : Field := { label := "Shots", pricing := { priceBy := .optionValue } }

def cup : Field :=
  { label := "Cup"
    pricing :=
      { priceBy := .perOption, isBasePrice := true
        perOption := .ofList [("Large", ⟨"4"⟩)] } }

def syrup : Field :=
  { label := "Syrup"
    pricing :=
      { priceBy := .dependency
        dependsOn := some
          { source := "Cup", values := .ofList [("Hazel", .ofList [("Large", ⟨"1"⟩)])] } } }

/-- A remark that is switched off, under a figure and a factor that cannot be read. -/
def remark : Field :=
  { label := "Remark", kind := .textField
    pricing :=
      { affectsPrice := false, priceBy := .constant, isBasePrice := true
        constant := ⟨"as you like"⟩, factor := "%" } }

/-- A second field of the label that syrups depend on, without a price. -/
def cupToGo : Field := { label := "Cup" }

def coffee : List Field := [shots, cupToGo, syrup, remark, cup]

def coffeeByTier : List Field := [cupToGo, remark, cup, syrup, shots]

def coffeeChoices : List Choice :=
  [⟨"Cup", ⟨"Large"⟩⟩, ⟨"Syrup", ⟨"Hazel"⟩⟩, ⟨"Shots", ⟨"2"⟩⟩]

/-- 4 × 2 + 1. -/
def coffeeQuote : Quote := ⟨.ofUInt32 9, .zero, .ofUInt32 9⟩

end Sample

/-- A coffee that is declared back to front, with one label twice. -/
theorem evaluate_coffeeByTier :
    ReorderedInTiers Sample.coffee Sample.coffeeByTier ∧
      Quote.evaluate Sample.coffee Sample.coffeeChoices .zero = .ok Sample.coffeeQuote ∧
      Quote.evaluate Sample.coffeeByTier Sample.coffeeChoices .zero = .ok Sample.coffeeQuote := by
  have hreordered : ReorderedInTiers Sample.coffee Sample.coffeeByTier := by
    refine ⟨by decide +kernel, fun tier => ?_⟩
    cases tier <;> rfl
  have hquote : Quote.evaluate Sample.coffeeByTier Sample.coffeeChoices .zero =
      .ok Sample.coffeeQuote := by
    rw [Quote.evaluate, Breakdown.evaluate, FieldPair.pairByLabel_eq]
    decide +kernel
  obtain ⟨-, hsame, -⟩ := evaluate_of_reordered hreordered Sample.coffeeChoices .zero
  exact ⟨hreordered, hsame.trans hquote, hquote⟩

namespace Sample

def five : Field :=
  { label := "Five", pricing := { priceBy := .constant, isBasePrice := true, constant := ⟨"5"⟩ } }

def twice : Field :=
  { label := "Twice"
    pricing := { priceBy := .constant, isBasePrice := true, constant := ⟨"2"⟩, factor := "×" } }

end Sample

-- Inside a tier the order counts: (0 + 5) × 2 and 0 × 2 + 5.
example :
    (Breakdown.evaluate [Sample.five, Sample.twice] []).map (·.base) = .ok (.ofUInt32 10) ∧
      (Breakdown.evaluate [Sample.twice, Sample.five] []).map (·.base) = .ok (.ofUInt32 5) := by
  rw [Breakdown.evaluate, Breakdown.evaluate, FieldPair.pairByLabel_eq, FieldPair.pairByLabel_eq]
  decide +kernel

/-! ### What does not enter the price -/

/-- The labels of the active fields that look at what was chosen for them. -/
def ownLabels (fields : List Field) : List String :=
  (fields.filter fun f => f.pricing.isActive && f.pricing.priceBy.readsChoice).map (·.label)

/-- The labels that active fields depend on. -/
def sourceLabels (fields : List Field) : List String :=
  (fields.filter fun f => f.pricing.isActive && decide (f.pricing.priceBy = .dependency)).filterMap
    fun f => f.pricing.dependsOn.map (·.source)

theorem mem_ownLabels (hf : f ∈ fields) (hactive : f.pricing.isActive = true)
    (hreads : f.pricing.priceBy.readsChoice = true) : f.label ∈ ownLabels fields := by
  apply List.mem_map_of_mem
  exact List.mem_filter.mpr ⟨hf, by rw [hactive, hreads]; rfl⟩

theorem mem_sourceLabels {d : PriceDependency} (hf : f ∈ fields)
    (hactive : f.pricing.isActive = true) (hby : f.pricing.priceBy = .dependency)
    (hd : d ∈ f.pricing.dependsOn) : d.source ∈ sourceLabels fields := by
  refine List.mem_filterMap.mpr ⟨f, List.mem_filter.mpr ⟨hf, ?_⟩, ?_⟩
  · rw [hactive, hby]
    rfl
  · rw [Option.mem_def.mp hd]
    rfl

theorem Breakdown.evaluate_of_relevant
    (h : ∀ label ∈ ownLabels fields ++ sourceLabels fields,
      chosenValue? a label = chosenValue? b label) :
    evaluate fields a = evaluate fields b := by
  apply evaluate_congr rfl
  intro f hf hactive
  constructor
  · intro hreads
    exact h _ (List.mem_append_left _ (mem_ownLabels hf hactive hreads))
  · intro hby d hd
    rw [sourceValue?, sourceValue?,
      h _ (List.mem_append_right _ (mem_sourceLabels hf hactive hby hd))]

theorem Breakdown.evaluate_of_removed {before after : List Field}
    (hactive : f.pricing.isActive = false)
    (hsource : f.label ∉ sourceLabels (before ++ f :: after)) (choices : List Choice) :
    evaluate (before ++ f :: after) choices = evaluate (before ++ after) choices := by
  apply evaluate_congr
  · unfold activeInTiers
    refine List.flatMap_congr fun tier _ => ?_
    simp [List.filter_append, hactive]
  · intro g hg hgactive
    refine ⟨fun _ => rfl, ?_⟩
    intro hby d hd
    have hne : f.label ≠ d.source := by
      intro heq
      exact hsource (heq ▸ mem_sourceLabels hg hgactive hby hd)
    simp [sourceValue?, List.any_append, hne]

/-- **Noninterference of prices.**  Choices that agree on the first value, or on its absence,
    of every label that an active field looks up give the same quote or the same fault.  So
    does taking an inactive field away, whatever it holds, if no active field depends on its
    label. -/
theorem evaluate_noninterference (fields : List Field) (rate : Decimal) :
    (∀ a b : List Choice,
      (∀ label ∈ ownLabels fields ++ sourceLabels fields,
        chosenValue? a label = chosenValue? b label) →
      Quote.evaluate fields a rate = Quote.evaluate fields b rate) ∧
    ∀ (before after : List Field) (f : Field), fields = before ++ f :: after →
      f.pricing.isActive = false → f.label ∉ sourceLabels fields →
      ∀ choices, Quote.evaluate fields choices rate =
        Quote.evaluate (before ++ after) choices rate := by
  constructor
  · intro a b h
    exact Quote.evaluate_of_breakdown (Breakdown.evaluate_of_relevant h) rate
  · rintro before after f rfl hactive hsource choices
    exact Quote.evaluate_of_breakdown (Breakdown.evaluate_of_removed hactive hsource choices) rate

namespace Sample

/-- The choices for a coffee in another order, with second thoughts and a remark. -/
def chattyChoices : List Choice :=
  [⟨"Remark", ⟨"no sugar"⟩⟩, ⟨"Shots", ⟨"2"⟩⟩, ⟨"Syrup", ⟨"Hazel"⟩⟩, ⟨"Cup", ⟨"Large"⟩⟩,
    ⟨"Shots", ⟨"many"⟩⟩, ⟨"Colour", ⟨"blue"⟩⟩]

end Sample

/-- Neither second thoughts nor the remark enter the price of a coffee, and neither does the
    field for remarks. -/
theorem evaluate_chattyCoffee :
    (∀ label ∈ ownLabels Sample.coffee ++ sourceLabels Sample.coffee,
      chosenValue? Sample.chattyChoices label = chosenValue? Sample.coffeeChoices label) ∧
    Sample.remark.pricing.isActive = false ∧ "Remark" ∉ sourceLabels Sample.coffee ∧
    Quote.evaluate Sample.coffee Sample.chattyChoices .zero = .ok Sample.coffeeQuote ∧
    Quote.evaluate [Sample.shots, Sample.cupToGo, Sample.syrup, Sample.cup] Sample.chattyChoices
      .zero = .ok Sample.coffeeQuote := by
  have hrelevant : ∀ label ∈ ownLabels Sample.coffee ++ sourceLabels Sample.coffee,
      chosenValue? Sample.chattyChoices label = chosenValue? Sample.coffeeChoices label := by
    decide +kernel
  have hquote : Quote.evaluate Sample.coffee Sample.coffeeChoices .zero =
      .ok Sample.coffeeQuote := by
    rw [Quote.evaluate, Breakdown.evaluate, FieldPair.pairByLabel_eq]
    decide +kernel
  obtain ⟨hchoices, hremoved⟩ := evaluate_noninterference Sample.coffee .zero
  have hchatty := (hchoices _ _ hrelevant).trans hquote
  have hshort := hremoved [Sample.shots, Sample.cupToGo, Sample.syrup] [Sample.cup] Sample.remark
    rfl (by decide +kernel) (by decide +kernel) Sample.chattyChoices
  exact ⟨hrelevant, by decide +kernel, by decide +kernel, hchatty, hshort.symm.trans hchatty⟩

end PointOfSale

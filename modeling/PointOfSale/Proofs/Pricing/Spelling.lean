/-
  PointOfSale/Proofs/Pricing/Spelling.lean
  ========================================
  **Other tokens for the factor of a field.**  Several tokens may name one operation:
  `+`, `add` and `increment` name the addition.  A base figure is combined by the operation
  that its factor names, so any token for it will do.  Outside the base a factor names no
  operation; it is compared with `+`, which alone adds, and every other token multiplies.

    * Another token for the same operation changes nothing in a base figure, in a figure
      that takes no notice of its factor and in an inactive field; nor does it where the
      factor is compared, unless one of the two tokens is `+`
      (`FieldPair.contribution_withFactor`).
    * An exchange of `+` for another token, where the factor is compared, takes the figure
      from the adders to the multipliers (`FieldPair.contribution_multiplied`).
-/
import Mathlib.Data.List.Forall2
import PointOfSale.Proofs.Pricing.Dependence

namespace PointOfSale

/-! ### Tokens and factors -/

/-- Two tokens that name one operation. -/
def SameOperation (s t : String) : Prop :=
  ∃ op, Operation.ofToken? s = some op ∧ Operation.ofToken? t = some op

theorem SameOperation.parse_eq {s t : String} (h : SameOperation s t) :
    Operation.parse s = Operation.parse t := by
  obtain ⟨op, hs, ht⟩ := h
  rw [Operation.parse, Operation.parse, hs, ht]

/-- Whether the factor is compared with `+` to see where the figure goes, instead of being
    read as the name of an operation or passed over. -/
def Pricing.comparesFactor (p : Pricing) : Bool :=
  match p.priceBy with
  | .constant | .input => !p.isBasePrice
  | .dependency => true
  | .perOption | .optionValue | .scaledOptionValue | .unpriced => false

def Field.withFactor (f : Field) (token : String) : Field :=
  { f with pricing := { f.pricing with factor := token } }

/-- A field as it is, or with another token for the same operation.  Where an active field
    compares its factor, both tokens are `+` or both are not. -/
inductive Field.Respelled (f : Field) : Field → Prop where
  | kept : f.Respelled f
  | token {t : String} (operation : SameOperation f.pricing.factor t)
      (compared : f.pricing.isActive → f.pricing.comparesFactor →
        (f.pricing.factor = "+" ↔ t = "+")) :
      f.Respelled (f.withFactor t)

/-! ### One field -/

/-- The same figure as a multiplier, if it is an adder. -/
def Contribution.multiplied : Contribution → Contribution
  | .base d => .base d
  | .adder d | .multiplier d => .multiplier d

namespace FieldPair

variable {f : Field} {t : String} {chosen : Option Literal} {all : List FieldPair}

theorem byFactor_of_ne (h : t ≠ "+") (d : Decimal) :
    byFactor (f.withFactor t).pricing d = .multiplier d := by
  simp [byFactor, Pricing.isAdditive, Field.withFactor, h]

/-- The figure of a field that compares its factor: it is found without the factor, which
    says where it goes. -/
def comparedFigure (p : FieldPair) (all : List FieldPair) : Except Fault (Option Decimal) :=
  if p.field.pricing.affectsPrice then
    if p.field.pricing.priceBy = .dependency then do
      let current ← p.choice
      match p.field.pricing.dependsOn with
      | none => throw (.missingDependency p.label)
      | some d => some <$> d.resolve current.text all
    else some <$> p.field.pricing.constant.number
  else .ok none

theorem contribution_of_compared (h : f.pricing.comparesFactor = true) (t : String)
    (chosen : Option Literal) (all : List FieldPair) :
    (FieldPair.mk (f.withFactor t) chosen).contribution all =
      Option.map (byFactor (f.withFactor t).pricing) <$>
        (FieldPair.mk f chosen).comparedFigure all := by
  cases haffects : f.pricing.affectsPrice with
  | false =>
    simp only [contribution, comparedFigure, Field.withFactor, haffects]
    rfl
  | true =>
    cases hby : f.pricing.priceBy with
    | constant | input =>
      have hbase : f.pricing.isBasePrice = false := by
        simpa [Pricing.comparesFactor, hby] using h
      simp only [contribution, comparedFigure, constantContribution, Field.withFactor, haffects,
        hby, hbase]
      cases f.pricing.constant.number <;> rfl
    | dependency =>
      simp only [contribution, comparedFigure, dependencyContribution, Field.withFactor, haffects,
        hby]
      cases chosen with
      | none => rfl
      | some current =>
        cases f.pricing.dependsOn with
        | none => rfl
        | some d => cases hd : d.resolve current.text all <;> simp [choice, hd]
    | perOption | optionValue | scaledOptionValue | unpriced =>
      simp [Pricing.comparesFactor, hby] at h

theorem contribution_of_not_compared (h : f.pricing.comparesFactor = false) :
    (FieldPair.mk (f.withFactor t) chosen).contribution all =
      (FieldPair.mk f chosen).contribution all := by
  cases hby : f.pricing.priceBy with
  | constant | input =>
    have hbase : f.pricing.isBasePrice = true := by
      simpa [Pricing.comparesFactor, hby] using h
    simp only [contribution, constantContribution, Field.withFactor, hby, hbase, if_true]
  | dependency => simp [Pricing.comparesFactor, hby] at h
  | perOption | optionValue | scaledOptionValue =>
    simp only [contribution, Field.withFactor, hby]
    rfl
  | unpriced => simp only [contribution, Field.withFactor, hby]

theorem contribution_withFactor
    (h : f.pricing.comparesFactor → (f.pricing.factor = "+" ↔ t = "+")) :
    (FieldPair.mk (f.withFactor t) chosen).contribution all =
      (FieldPair.mk f chosen).contribution all := by
  cases hcompares : f.pricing.comparesFactor with
  | false => exact contribution_of_not_compared hcompares
  | true =>
    have hkept : f.withFactor f.pricing.factor = f := rfl
    have hsame := contribution_of_compared hcompares f.pricing.factor chosen all
    rw [hkept] at hsame
    rw [contribution_of_compared hcompares t chosen all, hsame]
    by_cases hplus : t = "+"
    · rw [hplus, ← (h hcompares).2 hplus, hkept]
    · have hfactor : byFactor (f.withFactor t).pricing = byFactor f.pricing := by
        funext d
        rw [byFactor_of_ne hplus, ← hkept, byFactor_of_ne (mt (h hcompares).1 hplus)]
      rw [hfactor]

/-- Any other token than `+` makes a multiplier of what `+` makes an adder. -/
theorem contribution_multiplied (h : f.pricing.comparesFactor = true) (ht : t ≠ "+")
    (chosen : Option Literal) (all : List FieldPair) :
    (FieldPair.mk (f.withFactor t) chosen).contribution all =
      Option.map Contribution.multiplied <$>
        (FieldPair.mk (f.withFactor "+") chosen).contribution all := by
  have hmultiplied : byFactor (f.withFactor t).pricing =
      Contribution.multiplied ∘ byFactor (f.withFactor "+").pricing := by
    funext d
    exact byFactor_of_ne ht d
  rw [contribution_of_compared h t, contribution_of_compared h "+", hmultiplied,
    Functor.map_map]
  simp only [Option.map_map]

end FieldPair

/-! ### The walk over the fields -/

section Walk

variable {fields other : List Field} {f g : Field}

theorem labels_of_respelled (h : List.Forall₂ Field.Respelled fields other) :
    other.map (·.label) = fields.map (·.label) := by
  induction h with
  | nil => rfl
  | cons hfield _ ih =>
    rw [List.map_cons, List.map_cons, ih]
    cases hfield <;> rfl

theorem sourceValue?_of_respelled (h : List.Forall₂ Field.Respelled fields other)
    (choices : List Choice) (label : String) :
    sourceValue? fields choices label = sourceValue? other choices label := by
  have hany : ∀ walked : List Field,
      walked.any (·.label = label) = (walked.map (·.label)).any (· = label) := by
    intro walked
    rw [List.any_map]
    rfl
  rw [sourceValue?, sourceValue?, hany fields, hany other, labels_of_respelled h]

namespace Breakdown

theorem combine_of_sameOperation {s t : String} (h : SameOperation s t) (parts : Breakdown)
    (c : Contribution) : parts.combine s c = parts.combine t c := by
  cases c with
  | base d => rw [combine, combine, h.parse_eq]
  | adder d | multiplier d => rfl

theorem takeField_respelled (h : f.Respelled g) (choices : List Choice) (parts : Breakdown) :
    takeField fields choices parts g = takeField fields choices parts f := by
  cases h with
  | kept => rfl
  | @token t operation compared =>
    cases hactive : f.pricing.isActive with
    | false =>
      have hinactive : (f.withFactor t).pricing.isActive = false := hactive
      rw [takeField_of_inactive hactive, takeField_of_inactive hinactive]
    | true =>
      have hcontribution : (FieldPair.ofChoices choices (f.withFactor t)).contribution
          (fields.map (FieldPair.ofChoices choices)) =
            (FieldPair.ofChoices choices f).contribution
              (fields.map (FieldPair.ofChoices choices)) :=
        FieldPair.contribution_withFactor (compared hactive)
      rw [takeField, takeField, step, step, hcontribution]
      refine bind_congr fun c => ?_
      cases c with
      | none => rfl
      | some k => exact (combine_of_sameOperation operation parts k).symm

/-- The fields that are walked are respelled one by one. -/
theorem activeInTiers_respelled (h : List.Forall₂ Field.Respelled fields other) :
    List.Forall₂ Field.Respelled (activeInTiers fields) (activeInTiers other) := by
  have htiers : List.Forall₂ Eq PriceTier.all PriceTier.all := List.forall₂_refl _
  refine List.rel_flatMap htiers ?_
  rintro tier _ rfl
  refine List.rel_filter ?_ h
  intro f g hfield
  cases hfield <;> exact Iff.rfl

theorem evaluate_respelled (h : List.Forall₂ Field.Respelled fields other)
    (choices : List Choice) : evaluate fields choices = evaluate other choices := by
  have hsame : ∀ g parts, takeField fields choices parts g = takeField other choices parts g := by
    intro g parts
    have hreads : ReadsSame fields other choices choices g :=
      ⟨fun _ => rfl, fun _ d _ => sourceValue?_of_respelled h choices d.source⟩
    exact takeField_congr hreads parts
  rw [evaluate_eq_foldlM, evaluate_eq_foldlM]
  refine foldlM_forall₂ (activeInTiers_respelled h) fun f g hfield parts => ?_
  rw [← hsame, takeField_respelled hfield]

end Breakdown

end Walk

/-- **Tokens for one operation are interchangeable**, but for `+` outside the base.  A schema
    with other tokens gives the same parts of the price and the same quote, or the same
    fault.  Where an active field compares its factor, `+` may not be exchanged: any other
    token multiplies there. -/
theorem evaluate_of_respelled :
    (∀ fields other : List Field, List.Forall₂ Field.Respelled fields other →
      ∀ (choices : List Choice) (rate : Decimal),
        Breakdown.evaluate fields choices = Breakdown.evaluate other choices ∧
        Quote.evaluate fields choices rate = Quote.evaluate other choices rate) ∧
    ∀ (f : Field) (t : String), f.pricing.comparesFactor → t ≠ "+" →
      ∀ (chosen : Option Literal) (all : List FieldPair),
        (FieldPair.mk (f.withFactor t) chosen).contribution all =
          Option.map Contribution.multiplied <$>
            (FieldPair.mk (f.withFactor "+") chosen).contribution all := by
  constructor
  · intro fields other h choices rate
    have hparts := Breakdown.evaluate_respelled h choices
    exact ⟨hparts, Quote.evaluate_of_breakdown hparts rate⟩
  · intro f t hcompares ht chosen all
    exact FieldPair.contribution_multiplied hcompares ht chosen all

namespace Sample

def box : Field := { label := "Box", pricing := { priceBy := .constant, constant := ⟨"2"⟩ } }

def guests : Field :=
  { label := "Guests", pricing := { priceBy := .constant, constant := ⟨"3"⟩, factor := "×" } }

def bar : List Field := [five, twice, guests, box, remark]

def barRespelled : List Field :=
  [five.withFactor "increment", twice.withFactor "multiply", guests.withFactor "multiply", box,
    remark]

/-- (0 + 5) × 2 × 3 + 2. -/
def barQuote : Quote := ⟨.ofUInt32 32, .zero, .ofUInt32 32⟩

end Sample

/-- A base of two figures under other tokens, with a multiplier under another one; and a box
    that `subtract` would not take off either. -/
theorem evaluate_barRespelled :
    List.Forall₂ Field.Respelled Sample.bar Sample.barRespelled ∧
      Quote.evaluate Sample.bar [] .zero = .ok Sample.barQuote ∧
      Quote.evaluate Sample.barRespelled [] .zero = .ok Sample.barQuote ∧
      Sample.box.pricing.comparesFactor = true ∧ "subtract" ≠ "+" ∧
      (FieldPair.mk (Sample.box.withFactor "subtract") none).contribution [] =
        .ok (some (.multiplier (.ofUInt32 2))) := by
  have hfive : Sample.five.Respelled (Sample.five.withFactor "increment") :=
    .token ⟨.add, by decide, by decide⟩ (by decide)
  have htwice : Sample.twice.Respelled (Sample.twice.withFactor "multiply") :=
    .token ⟨.multiply, by decide, by decide⟩ (by decide)
  have hguests : Sample.guests.Respelled (Sample.guests.withFactor "multiply") :=
    .token ⟨.multiply, by decide, by decide⟩ (by decide)
  have hrespelled : List.Forall₂ Field.Respelled Sample.bar Sample.barRespelled :=
    .cons hfive (.cons htwice (.cons hguests (.cons .kept (.cons .kept .nil))))
  have hquote : Quote.evaluate Sample.bar [] .zero = .ok Sample.barQuote := by
    rw [Quote.evaluate, Breakdown.evaluate, FieldPair.pairByLabel_eq]
    decide +kernel
  obtain ⟨-, hsame⟩ := evaluate_of_respelled.1 _ _ hrespelled [] .zero
  have hbox := evaluate_of_respelled.2 Sample.box "subtract" (by decide) (by decide) none []
  have hplus : (FieldPair.mk (Sample.box.withFactor "+") none).contribution [] =
      .ok (some (.adder (.ofUInt32 2))) := by decide +kernel
  refine ⟨hrespelled, hquote, hsame.symm.trans hquote, by decide, by decide, ?_⟩
  rw [hbox, hplus]
  rfl

/-- **`add` is not `+` outside the base**: 5 + 2 becomes 5 × 2. -/
theorem quote_boxAsAdd_ne :
    SameOperation "+" "add" ∧ Sample.box.pricing.factor = "+" ∧
      Breakdown.evaluate [Sample.five, Sample.box] [] ≠
        Breakdown.evaluate [Sample.five, Sample.box.withFactor "add"] [] ∧
      Quote.evaluate [Sample.five, Sample.box] [] .zero =
        .ok ⟨.ofUInt32 7, .zero, .ofUInt32 7⟩ ∧
      Quote.evaluate [Sample.five, Sample.box.withFactor "add"] [] .zero =
        .ok ⟨.ofUInt32 10, .zero, .ofUInt32 10⟩ := by
  refine ⟨⟨.add, by decide, by decide⟩, rfl, ?_⟩
  simp only [Quote.evaluate, Breakdown.evaluate, FieldPair.pairByLabel_eq]
  exact ⟨by decide +kernel, by decide +kernel, by decide +kernel⟩

end PointOfSale

/-
  PointOfSale/Proofs/Pricing/Exactness.lean
  =========================================
  **Which operations an evaluation performs**, and when they are exact.  A result of
  decimal arithmetic is exact where no digit of it is lost to the size of the
  coefficient or the scale.  `Quote.performed` lists every operation of a quote with
  the operands that it has there: the divisions of ratios, the products of scaled
  figures, the combinations of the base, the folds to the price before tax, and tax.
-/
import PointOfSale.Pricing
import PointOfSale.Proofs.Checked
import PointOfSale.Proofs.Decimal.Quotient
import PointOfSale.Proofs.Pricing.Formula

namespace PointOfSale

/-- An operation of decimal arithmetic with its operands. -/
inductive DecimalStep where
  | apply (op : Operation) (value accumulator : Decimal)
  | quotient (a b : Decimal)
  deriving DecidableEq, Repr

namespace DecimalStep

def result? : DecimalStep → Option Decimal
  | apply op value accumulator => op.result? value accumulator
  | quotient a b => a.div? b

def exact : DecimalStep → ℚ
  | apply op value accumulator => op.exact value.value accumulator.value
  | quotient a b => a.value / b.value

/-- No digit of the result is lost. -/
def IsExact (s : DecimalStep) : Prop := ∀ d ∈ s.result?, d.value = s.exact

instance (s : DecimalStep) : Decidable s.IsExact := inferInstanceAs (Decidable (∀ d ∈ _, _))

end DecimalStep

namespace Operation

/-- An operation that succeeds gives the exact number fitted. -/
theorem gives_result? (op : Operation) (value accumulator : Decimal) :
    Decimal.Gives (op.result? value accumulator) (op.exact value.value accumulator.value) := by
  cases op
  case add => exact Decimal.gives_add _ _
  case subtract => exact Decimal.gives_sub _ _
  case multiply => exact Decimal.gives_mul _ _

theorem fitted_of_apply {op : Operation} {value accumulator d : Decimal}
    (h : op.apply value accumulator = .ok d) :
    d.value = Decimal.fitted (op.exact value.value accumulator.value) :=
  (gives_result? op value accumulator).value (apply_eq_ok_iff.1 h)

theorem value_of_apply {op : Operation} {value accumulator d : Decimal}
    (h : op.apply value accumulator = .ok d)
    (hexact : (DecimalStep.apply op value accumulator).IsExact) :
    d.value = op.exact value.value accumulator.value :=
  hexact d (apply_eq_ok_iff.1 h)

end Operation

/-- A result that some decimal holds loses no digit. -/
theorem DecimalStep.isExact_of_held {s : DecimalStep} {e : Decimal} (h : e.value = s.exact) :
    s.IsExact := by
  intro d hd
  cases s with
  | apply op value accumulator =>
    have hfitted := (Operation.gives_result? op value accumulator).value hd
    rw [exact] at h ⊢
    rw [hfitted, ← h, Decimal.fitted_value]
  | quotient a b =>
    rw [exact] at h ⊢
    have hnonzero : b.isZero = false := by
      cases hzero : b.isZero with
      | false => rfl
      | true => simp [result?, Decimal.div?, hzero] at hd
    have hheld := e.heldAt_value
    rw [h] at hheld
    obtain ⟨q, hq, hvalue⟩ := Decimal.div?_of_heldAt e.scale_le hnonzero hheld
    obtain rfl : q = d := Option.some.inj (hq.symm.trans hd)
    exact hvalue

/-- What a row of steps performs, one after the other, until one of them fails. -/
def performedAlong {α β : Type} (performed : β → α → List DecimalStep)
    (f : β → α → Except Fault β) : β → List α → List DecimalStep
  | _, [] => []
  | b, a :: as =>
    performed b a ++
      match f b a with
      | .ok next => performedAlong performed f next as
      | .error _ => []

def performedAfter {α : Type} (x : Except Fault α) (performed : α → List DecimalStep) :
    List DecimalStep :=
  match x with
  | .ok a => performed a
  | .error _ => []

/-! ### The operations of an evaluation -/

/-- Reading a ratio divides. -/
def Literal.performed (l : Literal) : List DecimalStep :=
  match Literal.enclosed? (Text.trim l.text.toList) with
  | some inner => (Literal.ratioParts? inner).toList.map fun (a, b) => .quotient a b
  | none => []

/-- The figures that a contribution reads, and the product of a scaled one. -/
def FieldPair.performed (p : FieldPair) (all : List FieldPair) : List DecimalStep :=
  if p.field.pricing.affectsPrice then
    match p.field.pricing.priceBy with
    | .constant | .input => p.field.pricing.constant.performed
    | .perOption => p.chosen.toList.flatMap fun chosen =>
      (p.field.pricing.perOption.get? chosen.text).toList.flatMap Literal.performed
    | .optionValue => p.chosen.toList.flatMap Literal.performed
    | .scaledOptionValue =>
      p.field.pricing.constant.performed ++ p.chosen.toList.flatMap fun chosen =>
        chosen.performed ++
          performedAfter p.field.pricing.constant.number fun scale =>
            performedAfter chosen.number fun x => [.apply .multiply x scale]
    | .dependency => p.chosen.toList.flatMap fun chosen =>
      (p.field.pricing.dependsOn.bind fun d => d.entry? chosen.text all).toList.flatMap
        Literal.performed
    | .unpriced => []
  else []

namespace Breakdown

/-- Taking a field in: its own operations, and the one that combines a base figure. -/
def stepPerformed (all : List FieldPair) (b : Breakdown) (p : FieldPair) : List DecimalStep :=
  p.performed all ++
    match p.contribution all with
    | .ok (some (.base d)) =>
      (Operation.ofToken? p.field.pricing.factor).toList.map (.apply · d b.base)
    | _ => []

def performed (pairs : List FieldPair) : List DecimalStep :=
  performedAlong (stepPerformed pairs) (step pairs) {} (inTiers pairs)

def foldPerformed (op : Operation) (total : Decimal) (figures : List Decimal) :
    List DecimalStep :=
  performedAlong (fun total d => [.apply op d total]) (fun total d => op.apply d total) total
    figures

def preTaxPerformed (b : Breakdown) : List DecimalStep :=
  foldPerformed .multiply b.base b.multipliers ++
    performedAfter (b.multipliers.foldlM (fun total m => Operation.multiply.apply m total) b.base)
      fun scaled => foldPerformed .add scaled b.adders

end Breakdown

namespace Quote

/-- Tax is a product and its hundredth part, and is added to the price before tax. -/
def taxPerformed (preTax rate : Decimal) : List DecimalStep :=
  .apply .multiply rate preTax ::
    performedAfter (Operation.multiply.apply rate preTax) fun product =>
      [.quotient product Decimal.hundred, .apply .add product.hundredth preTax]

def performed (fields : List Field) (choices : List Choice) (rate : Decimal) :
    List DecimalStep :=
  Breakdown.performed (FieldPair.pairByLabel fields choices) ++
    performedAfter (Breakdown.evaluate fields choices) fun b =>
      b.preTaxPerformed ++ performedAfter b.preTax fun preTax => taxPerformed preTax rate

def IsExact (fields : List Field) (choices : List Choice) (rate : Decimal) : Prop :=
  ∀ s ∈ performed fields choices rate, s.IsExact

instance (fields : List Field) (choices : List Choice) (rate : Decimal) :
    Decidable (IsExact fields choices rate) :=
  inferInstanceAs (Decidable (∀ s ∈ _, _))

end Quote

/-! ### Figures and folds without rounding -/

theorem Literal.ratio?_eq (cs : List Char) :
    Literal.ratio? cs = (Literal.ratioParts? cs).bind fun (a, b) => a.div? b := by
  unfold Literal.ratio? Literal.ratioParts?
  cases cs.dropWhile (· ≠ '/') with
  | nil => rfl
  | cons c denominator =>
    simp only [Option.bind_eq_bind, Option.pure_def, Option.bind_assoc, Option.bind_some]

/-- A figure that is read as a number denotes this number, if a ratio in it is exact. -/
theorem Literal.figure?_of_number {l : Literal} {d : Decimal} (h : l.number = .ok d)
    (hexact : ∀ s ∈ l.performed, s.IsExact) : l.figure? = some d.value := by
  have hread : Literal.number? l.text.toList = some d := by
    unfold Literal.number Literal.parse at h
    split at h
    · rename_i hd
      cases h
      exact hd
    · cases h
  unfold Literal.number? at hread
  unfold Literal.figure?
  unfold Literal.performed at hexact
  rcases henclosed : Literal.enclosed? (Text.trim l.text.toList) with _ | inner
  · simp only [henclosed] at hread ⊢
    rw [hread, Option.map_some]
  · simp only [henclosed] at hread hexact ⊢
    rw [Literal.ratio?_eq, Option.bind_eq_some_iff] at hread
    obtain ⟨⟨a, b⟩, hparts, hdiv⟩ := hread
    have hnonzero : b.isZero = false := by
      cases hzero : b.isZero with
      | false => rfl
      | true => simp [Decimal.div?, hzero] at hdiv
    have hvalue := hexact (.quotient a b) (by simp [hparts]) d hdiv
    simp only [hparts, Option.bind_eq_bind, Option.bind_some, hnonzero, Bool.false_eq_true,
      if_false, hvalue, DecimalStep.exact]

theorem exact_of_performedAlong_cons {α β : Type} {performed : β → α → List DecimalStep}
    {f : β → α → Except Fault β} {b next : β} {a : α} {as : List α}
    (h : ∀ s ∈ performedAlong performed f b (a :: as), s.IsExact) (hnext : f b a = .ok next) :
    (∀ s ∈ performed b a, s.IsExact) ∧
      ∀ s ∈ performedAlong performed f next as, s.IsExact := by
  simp only [performedAlong, hnext, List.mem_append] at h
  exact ⟨fun s hs => h s (Or.inl hs), fun s hs => h s (Or.inr hs)⟩

theorem exact_of_performedAfter {α : Type} {x : Except Fault α} {a : α}
    {performed : α → List DecimalStep} (h : ∀ s ∈ performedAfter x performed, s.IsExact)
    (hx : x = .ok a) : ∀ s ∈ performed a, s.IsExact := by
  rw [hx] at h
  exact h

theorem Breakdown.value_of_fold {op : Operation} {figures : List Decimal} {total last : Decimal}
    (h : figures.foldlM (fun total d => op.apply d total) total = .ok last)
    (hexact : ∀ s ∈ foldPerformed op total figures, s.IsExact) :
    last.value = (figures.map Decimal.value).foldl (fun x y => op.exact y x) total.value := by
  induction figures generalizing total with
  | nil =>
    cases h
    rfl
  | cons d figures ih =>
    rw [List.foldlM_cons, bind_eq_ok_iff] at h
    obtain ⟨next, hnext, hrest⟩ := h
    obtain ⟨hfirst, hothers⟩ := exact_of_performedAlong_cons hexact hnext
    have hvalue := Operation.value_of_apply hnext (hfirst _ (List.mem_singleton.mpr rfl))
    rw [ih hrest hothers, List.map_cons, List.foldl_cons, hvalue]

end PointOfSale

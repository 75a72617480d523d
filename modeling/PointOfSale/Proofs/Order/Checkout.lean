/-
  PointOfSale/Proofs/Order/Checkout.lean
  ======================================
  **Where a checkout overflows.**  Lines, summaries and settlements calculate without
  looking whether a decimal holds the result.  For lines that the desk has issued it is
  said here exactly where none does:

    * a line, where its exact total or tax reaches the size limit;
    * a summary, up to rounding, where the totals of the lines add up to the bound of a
      coefficient (`exists_ofLines`, `sum_lt_bound_of_ofLines`);
    * a settlement, for two methods of payment only: with cash first where the cash is so
      far below zero that the rest for the card overflows, and with the card first where
      the same holds of the card or where cash and card add up to the size limit
      (`settle_overflowed_iff`).

  An order of one line can overflow, and so can the settlement of a small one
  (`checkout_overflows`).
-/
import PointOfSale.Order.Settlement
import PointOfSale.Proofs.Order.Totals

namespace PointOfSale

open Decimal (fitted sizeLimit bound)

namespace Settlement

variable {α β : Type}

/-! ### Stopped by an overflow -/

/-- There is no result because a calculation overflowed. -/
def Overflowed (x : Except SettlementStop α) : Prop := ∃ o, x = .error (.overflowed o)

@[simp] theorem not_overflowed_ok (a : α) : ¬Overflowed (.ok a : Except SettlementStop α) := by
  rintro ⟨o, ho⟩
  cases ho

@[simp] theorem not_overflowed_refused (r : Refusal) :
    ¬Overflowed (.error (.refused r) : Except SettlementStop α) := by
  rintro ⟨o, ho⟩
  cases ho

theorem overflowed_bind_iff {x : Except SettlementStop α} {f : α → Except SettlementStop β} :
    Overflowed (x >>= f) ↔ Overflowed x ∨ ∃ a, x = .ok a ∧ Overflowed (f a) := by
  cases x with
  | error stop => simp [Overflowed]
  | ok a => simp

theorem overflowed_map_iff {x : Except SettlementStop α} {f : α → β} :
    Overflowed (f <$> x) ↔ Overflowed x := by
  cases x <;> simp [Overflowed]

theorem overflowed_reckon_iff {o : Overflow} {result? : Option Decimal} {x : ℚ}
    (h : Decimal.Gives result? x) : Overflowed (reckon (o.orElse result?)) ↔ sizeLimit ≤ |x| := by
  rw [← not_lt, ← h.isSome_iff]
  cases result? <;> simp [Overflowed, Overflow.orElse, reckon]

theorem value_of_reckon {o : Overflow} {result? : Option Decimal} {x : ℚ} {d : Decimal}
    (h : Decimal.Gives result? x) (hd : reckon (o.orElse result?) = .ok d) : d.value = fitted x := by
  cases hresult : result? with
  | none =>
    rw [hresult] at hd
    cases hd
  | some e =>
    rw [hresult] at hd
    cases hd
    exact h.value hresult

theorem overflowed_minus_iff {a b : Decimal} :
    Overflowed (reckon (minus a b)) ↔ sizeLimit ≤ |a.value - b.value| :=
  overflowed_reckon_iff (Decimal.gives_sub a b)

theorem overflowed_shortfall_iff {a b : Decimal} :
    Overflowed (shortfall a b) ↔ sizeLimit ≤ |a.value - b.value| := by
  rw [shortfall, overflowed_map_iff, overflowed_minus_iff]

theorem value_of_shortfall {a b d : Decimal} (h : shortfall a b = .ok d) :
    d.value = max (fitted (a.value - b.value)) 0 := by
  obtain ⟨e, he, rfl⟩ := map_eq_ok_iff.1 h
  rw [Decimal.value_atLeast, Decimal.value_zero, value_of_reckon (Decimal.gives_sub a b) he]

theorem exists_shortfall {a b : Decimal} (h : |a.value - b.value| < sizeLimit) :
    ∃ d, shortfall a b = .ok d := by
  obtain ⟨d, hd⟩ := (Overflow.exists_orElse_iff (Decimal.gives_sub a b)).2 h
  refine ⟨d.atLeast Decimal.zero, ?_⟩
  rw [shortfall, minus, hd]
  rfl

/-! ### Each method of payment -/

variable {total cash card : Decimal}

theorem payCash_eq (total cash : Decimal) :
    payCash total cash =
      if cash < total then .error (.refused (.insufficientPayment total cash))
      else (fun change => ⟨.cash, cash, Decimal.zero, change⟩) <$> reckon (minus cash total) := by
  unfold payCash
  split <;> rfl

theorem payCashThenCard_eq (total cash : Decimal) :
    payCashThenCard total cash =
      if total < cash then
        (fun change => ⟨.cash, cash, Decimal.zero, change⟩) <$> reckon (minus cash total)
      else
        (fun rest => ⟨.cashThenCard, cash, rest, Decimal.zero⟩) <$> reckon (minus total cash) := by
  unfold payCashThenCard
  split <;> rfl

theorem payCardThenCash_eq (total cash card : Decimal) :
    payCardThenCash total cash card =
      if total < card then .error (.refused (.cardOverpayment card total))
      else
        shortfall total card >>= fun remaining =>
          if cash < remaining then .error (.refused (.insufficientPayment remaining cash))
          else
            reckon (plus cash card) >>= fun paid =>
              (fun change =>
                ⟨if remaining.isZero then .card else .cardThenCash, cash, card, change⟩) <$>
                shortfall paid total := by
  unfold payCardThenCash
  split
  · rfl
  · refine bind_congr fun remaining => ?_
    split <;> rfl

/-- What is left of a decimal when a part of it is taken away. -/
theorem abs_sub_lt_sizeLimit {a b : Decimal} (hb : 0 ≤ b.value) (h : b.value ≤ a.value) :
    |a.value - b.value| < sizeLimit := by
  rw [abs_of_nonneg (by linarith)]
  linarith [a.abs_value_lt, le_abs_self a.value]

theorem not_overflowed_payCash (htotal : 0 ≤ total.value) : ¬Overflowed (payCash total cash) := by
  rw [payCash_eq]
  split
  · exact not_overflowed_refused _
  · rename_i henough
    rw [Decimal.lt_iff_value_lt, not_lt] at henough
    rw [overflowed_map_iff, overflowed_minus_iff, not_le]
    exact abs_sub_lt_sizeLimit htotal henough

theorem overflowed_payCashThenCard_iff (htotal : 0 ≤ total.value) :
    Overflowed (payCashThenCard total cash) ↔ sizeLimit ≤ total.value - cash.value := by
  rw [payCashThenCard_eq]
  split
  · rename_i hmore
    rw [Decimal.lt_iff_value_lt] at hmore
    rw [overflowed_map_iff, overflowed_minus_iff]
    refine iff_of_false (not_le.2 (abs_sub_lt_sizeLimit htotal hmore.le)) (not_le.2 ?_)
    linarith [Decimal.sizeLimit_pos]
  · rename_i hless
    rw [Decimal.lt_iff_value_lt, not_lt] at hless
    rw [overflowed_map_iff, overflowed_minus_iff, abs_of_nonneg (by linarith)]

/-- Cash that covers the rest brings the exact sum close to the total at least. -/
theorem total_le_sum {remaining : Decimal}
    (hremaining : remaining.value = max (fitted (total.value - card.value)) 0)
    (henough : remaining.value ≤ cash.value) :
    total.value - 1 / 2 ≤ cash.value + card.value := by
  have hrest := abs_le.1 (Decimal.abs_fitted_sub_le (total.value - card.value))
  have hcovered : fitted (total.value - card.value) ≤ cash.value := by
    rw [hremaining] at henough
    exact (le_max_left _ _).trans henough
  linarith [hrest.1]

theorem not_overflowed_change {paid : Decimal} (htotal : 0 ≤ total.value)
    (hsum : total.value - 1 / 2 ≤ cash.value + card.value)
    (hpaid : paid.value = fitted (cash.value + card.value)) :
    ¬Overflowed (shortfall paid total) := by
  have hnear := abs_le.1 (Decimal.abs_fitted_sub_le (cash.value + card.value))
  have hupper := (le_abs_self paid.value).trans_lt paid.abs_value_lt
  have hone : 1 < sizeLimit := by norm_num [sizeLimit, bound]
  rw [overflowed_shortfall_iff, not_le, abs_lt]
  constructor <;> linarith [hnear.1]

/-- The rest and the sum of both payments can overflow, the change cannot. -/
theorem overflowed_payCardThenCash_iff (htotal : 0 ≤ total.value) :
    Overflowed (payCardThenCash total cash card) ↔ card.value ≤ total.value ∧
      (sizeLimit ≤ total.value - card.value ∨ sizeLimit ≤ cash.value + card.value) := by
  rw [payCardThenCash_eq]
  split
  · rename_i hover
    rw [Decimal.lt_iff_value_lt] at hover
    refine iff_of_false (not_overflowed_refused _) ?_
    rintro ⟨hle, -⟩
    exact absurd hover (not_lt.2 hle)
  · rename_i hcard
    rw [Decimal.lt_iff_value_lt, not_lt] at hcard
    have hrest : |total.value - card.value| = total.value - card.value :=
      abs_of_nonneg (by linarith)
    rw [overflowed_bind_iff, overflowed_shortfall_iff, hrest, and_iff_right hcard]
    constructor
    · rintro (hlarge | ⟨remaining, hremaining, hstopped⟩)
      · exact Or.inl hlarge
      · right
        split at hstopped
        · exact absurd hstopped (not_overflowed_refused _)
        · rename_i henough
          rw [Decimal.lt_iff_value_lt, not_lt] at henough
          have hsum := total_le_sum (value_of_shortfall hremaining) henough
          rw [overflowed_bind_iff, plus, overflowed_reckon_iff (Decimal.gives_add _ _)] at hstopped
          rcases hstopped with hlarge | ⟨paid, hpaid, hchange⟩
          · have hhalf : 1 / 2 < sizeLimit := by norm_num [sizeLimit, bound]
            rcases le_abs.1 hlarge with hpositive | hnegative
            · exact hpositive
            · linarith
          · rw [overflowed_map_iff] at hchange
            exact absurd hchange (not_overflowed_change htotal hsum
              (value_of_reckon (Decimal.gives_add _ _) hpaid))
    · rintro (hlarge | hlarge)
      · exact Or.inl hlarge
      · rcases le_or_gt sizeLimit (total.value - card.value) with hfar | hnear
        · exact Or.inl hfar
        · right
          obtain ⟨remaining, hremaining⟩ := exists_shortfall (hrest.trans_lt hnear)
          have hbelow := (le_abs_self total.value).trans_lt total.abs_value_lt
          have henough : ¬cash < remaining := by
            rw [Decimal.lt_iff_value_lt, not_lt, value_of_shortfall hremaining]
            exact max_le (Decimal.fitted_le_value (by linarith)) (by linarith)
          refine ⟨remaining, hremaining, ?_⟩
          rw [if_neg henough, overflowed_bind_iff, plus,
            overflowed_reckon_iff (Decimal.gives_add _ _)]
          exact Or.inl (hlarge.trans (le_abs_self _))

/-! ### Settlements -/

/-- The tenders under which settling a total overflows. -/
def Overflows (total : Decimal) (tender : Tender) : Prop :=
  match tender.method with
  | .cash | .card => False
  | .cashThenCard => sizeLimit ≤ total.value - (roundMoney tender.cash).value
  | .cardThenCash =>
    (roundMoney tender.card).value ≤ total.value ∧
      (sizeLimit ≤ total.value - (roundMoney tender.card).value ∨
        sizeLimit ≤ (roundMoney tender.cash).value + (roundMoney tender.card).value)

instance (total : Decimal) (tender : Tender) : Decidable (Overflows total tender) := by
  unfold Overflows
  split <;> infer_instance

theorem overflowed_pay_iff (tender : Tender) (htotal : 0 ≤ total.value) :
    Overflowed (pay total tender) ↔ Overflows total tender := by
  unfold pay Overflows
  cases tender.method
  case cash => simpa using not_overflowed_payCash htotal
  case card => simp
  case cashThenCard => simpa using overflowed_payCashThenCard_iff htotal
  case cardThenCash => simpa using overflowed_payCardThenCash_iff htotal

theorem settle_overflowed_iff {s : Summary} (tender : Tender) (now : Timestamp)
    (htotal : 0 ≤ s.total.value) :
    Overflowed (settle s tender now) ↔ Overflows (roundMoney s.total) tender := by
  rw [← overflowed_pay_iff tender (roundMoney_nonneg htotal), settle, overflowed_bind_iff]
  refine or_iff_left ?_
  rintro ⟨p, -, hdone⟩
  exact not_overflowed_ok _ hdone

end Settlement

/-! ### Orders of issued lines -/

/-- **Where a checkout of issued lines overflows.**  The total and the tax of a line are there
    exactly where the exact ones are below the size limit.  There is a summary if the totals
    and taxes of the lines, rounded up to whole numbers, add up to less than the bound of a
    coefficient, and only if the totals rounded down do.  Settling it gives a transaction or a
    refusal exactly for the tenders that do not overflow. -/
theorem checkout_overflowed_iff (lines : List OrderLine)
    (hlines : ∀ l ∈ lines, ∃ desk store, l.Issued desk store) :
    (∀ l ∈ lines, ((∃ d, l.total = .ok d) ↔ l.exactTotal < sizeLimit) ∧
      ((∃ d, l.totalTax = .ok d) ↔ |l.exactTax| < sizeLimit)) ∧
    ((lines.map fun l => ⌈max l.exactTotal |l.exactTax|⌉₊).sum < bound →
      ∃ s, Summary.ofLines lines = .ok s) ∧
    ∀ s, Summary.ofLines lines = .ok s →
      (lines.map fun l => ⌊l.exactTotal⌋₊).sum < bound ∧
      ∀ tender now, (∃ o, settle s tender now = .error (.overflowed o)) ↔
        Settlement.Overflows (roundMoney s.total) tender := by
  have hprices : ∀ l ∈ lines, 0 ≤ l.price.value := by
    intro l hl
    obtain ⟨desk, store, hissued⟩ := hlines l hl
    exact hissued.price_nonneg
  have hexact : ∀ l ∈ lines, |l.exactTotal| = l.exactTotal := fun l hl =>
    abs_of_nonneg (OrderLine.exactTotal_nonneg (hprices l hl))
  refine ⟨?_, ?_, ?_⟩
  · intro l hl
    rw [OrderLine.exists_total_iff, OrderLine.exists_totalTax_iff, hexact l hl]
    exact ⟨Iff.rfl, Iff.rfl⟩
  · intro hsum
    refine Summary.exists_ofLines _ ?_ hsum
    intro l hl
    rw [hexact l hl]
    have hceil := Nat.le_ceil (max l.exactTotal |l.exactTax|)
    exact ⟨(le_max_left _ _).trans hceil, (le_max_right _ _).trans hceil⟩
  · intro s hs
    refine ⟨Summary.sum_lt_bound_of_ofLines _ ?_ hs, ?_⟩
    · intro l hl
      exact Nat.floor_le (OrderLine.exactTotal_nonneg (hprices l hl))
    · intro tender now
      exact Settlement.settle_overflowed_iff tender now (Summary.total_nonneg hprices hs)

namespace Sample

/-- 14.00 without tax. -/
def lunchQuote : Quote := ⟨.ofUInt32 14, .zero, .ofUInt32 14⟩

def lunch : OrderLine := dishLine "14" .zero 1 lunchQuote

/-- A price that has a decimal, and twice of which has none. -/
def dearQuote : Quote :=
  ⟨.ofNat (7 * 10 ^ 28) (by decide), .zero, .ofNat (7 * 10 ^ 28) (by decide)⟩

def dearLine : OrderLine := dishLine "70000000000000000000000000000" .zero 2 dearQuote

theorem issued_lunch : lunch.Issued {} (.ofList [dish "14" .zero]) := by
  refine issued_dishLine ?_ 1
  rw [Quote.evaluate, Breakdown.evaluate, FieldPair.pairByLabel_eq]
  decide +kernel

theorem issued_dearLine :
    dearLine.Issued {} (.ofList [dish "70000000000000000000000000000" .zero]) := by
  refine issued_dishLine ?_ 2
  rw [Quote.evaluate, Breakdown.evaluate, FieldPair.pairByLabel_eq]
  decide +kernel

/-- Ten by card, and the rest out of a case of cash. -/
def caseOfCash : Tender :=
  { method := .cardThenCash
    cash := .ofNat (bound - 1) (by decide)
    card := .ofUInt32 10 }

/-- Ten by card, and the rest out of a purse. -/
def purse : Tender := { caseOfCash with cash := .ofUInt32 20 }

end Sample

/-- A lunch can be paid by card and from a purse. -/
theorem checkout_lunch :
    (∀ l ∈ [Sample.lunch], ∃ desk store, l.Issued desk store) ∧
    ∃ s, Summary.ofLines [Sample.lunch] = .ok s ∧
      ¬∃ o, settle s Sample.purse .epoch = .error (.overflowed o) := by
  have hlines : ∀ l ∈ [Sample.lunch], ∃ desk store, l.Issued desk store := by
    rw [List.forall_mem_singleton]
    exact ⟨_, _, Sample.issued_lunch⟩
  obtain ⟨-, -, hsettle⟩ := checkout_overflowed_iff [Sample.lunch] hlines
  have hsummary : Summary.ofLines [Sample.lunch] =
      .ok { nonTaxable := Sample.lunchQuote.price, total := Sample.lunchQuote.price } := by
    decide +kernel
  obtain ⟨-, hoverflow⟩ := hsettle _ hsummary
  refine ⟨hlines, _, hsummary, ?_⟩
  rw [hoverflow]
  decide +kernel

/-- Two pieces of a dish overflow the total of their line and the summary, at a price that
    was quoted and stored without a fault.  The lunch cannot be paid by card and from a case
    of cash, although the change has a decimal. -/
theorem checkout_overflows :
    (Sample.dearLine.Issued {} (.ofList [Sample.dish "70000000000000000000000000000" .zero]) ∧
      Sample.dearLine.total = .error .multiplication ∧
      Summary.ofLines [Sample.dearLine] = .error .multiplication) ∧
    Sample.lunch.Issued {} (.ofList [Sample.dish "14" .zero]) ∧
    ∃ s, Summary.ofLines [Sample.lunch] = .ok s ∧
      settle s Sample.caseOfCash .epoch = .error (.overflowed .addition) :=
  ⟨⟨Sample.issued_dearLine, by decide +kernel, by decide +kernel⟩, Sample.issued_lunch,
    { nonTaxable := Sample.lunchQuote.price, total := Sample.lunchQuote.price },
    by decide +kernel, by decide +kernel⟩

end PointOfSale

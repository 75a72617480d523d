/-
  PointOfSale/Proofs/Order/Payment.lean
  =====================================
  **What a settlement records.**  For a total and a tender below `10 ^ 26` in size every
  figure of a settlement is exact, so a settlement is one of nine cases with the figures
  given in each (`Reckoned`, `reckoned_pay`).  From these:

    * cash and card less the change are the total, and the recorded method says where
      the money came from (`Reckoned.balanced`);
    * a payment is refused for a reason, and exactly where the tender does not cover
      the total or charges the card with more (`Reckoned.justified`,
      `Reckoned.accepted_iff`);
    * the amounts are sane exactly where the one that is taken first is not negative
      (`Reckoned.sane_iff`).

  Nothing checks the last condition.  With cash first, a negative amount of cash is
  charged to the card on top of the total (`settle_negativeCash`).
-/
import PointOfSale.Proofs.Order.Checkout
import PointOfSale.Proofs.Pricing.Formula

namespace PointOfSale

open Decimal (sizeLimit bound)

namespace Settlement

/-! ### Figures of a settlement are exact -/

/-- A figure made of up to `n` amounts. -/
structure IsMoney (n : ℕ) (d : Decimal) : Prop where
  cents : IsCents d.value
  size : |d.value| ≤ n * centsLimit

theorem isMoney_roundMoney {d : Decimal} (h : |d.value| < centsLimit) :
    IsMoney 1 (roundMoney d) := by
  refine ⟨isCents_roundMoney d, ?_⟩
  rw [Nat.cast_one, one_mul]
  exact abs_roundMoney_le h

section Exact

variable {a b : Decimal} {m n : ℕ} {x : ℚ}

theorem exists_reckon {o : Overflow} {result? : Option Decimal} (h : Decimal.Gives result? x)
    (hcents : IsCents x) (hsize : |x| ≤ n * centsLimit) (hn : n ≤ 3) :
    ∃ d, reckon (o.orElse result?) = .ok d ∧ d.value = x ∧ IsMoney n d := by
  have hthree : |x| ≤ 3 * centsLimit := by
    have hcast : (n : ℚ) ≤ 3 := by exact_mod_cast hn
    exact hsize.trans (mul_le_mul_of_nonneg_right hcast (by norm_num [centsLimit]))
  obtain ⟨d, hd, hvalue⟩ := Overflow.exists_orElse_of_isCents (o := o) h hcents hthree
  refine ⟨d, ?_, hvalue, ?_⟩
  · rw [hd]
    rfl
  · exact ⟨by rwa [hvalue], by rwa [hvalue]⟩

theorem exists_reckon_plus (ha : IsMoney m a) (hb : IsMoney n b) (hn : m + n ≤ 3) :
    ∃ d, reckon (plus a b) = .ok d ∧ d.value = a.value + b.value ∧ IsMoney (m + n) d := by
  refine exists_reckon (Decimal.gives_add a b) (ha.cents.add hb.cents) ?_ hn
  push_cast
  linarith [abs_add_le a.value b.value, ha.size, hb.size]

theorem exists_reckon_minus (ha : IsMoney m a) (hb : IsMoney n b) (hn : m + n ≤ 3) :
    ∃ d, reckon (minus a b) = .ok d ∧ d.value = a.value - b.value ∧ IsMoney (m + n) d := by
  refine exists_reckon (Decimal.gives_sub a b) (ha.cents.sub hb.cents) ?_ hn
  push_cast
  linarith [abs_sub a.value b.value, ha.size, hb.size]

theorem exists_shortfall_of_le (ha : IsMoney m a) (hb : IsMoney n b) (hn : m + n ≤ 3)
    (hle : b.value ≤ a.value) : ∃ d, shortfall a b = .ok d ∧ d.value = a.value - b.value := by
  obtain ⟨d, hd, hvalue, -⟩ := exists_reckon_minus ha hb hn
  refine ⟨d.atLeast Decimal.zero, ?_, ?_⟩
  · rw [shortfall, hd, ok_map]
  · rw [Decimal.value_atLeast, Decimal.value_zero, hvalue, max_eq_left (by linarith)]

end Exact

/-! ### The cases of a payment -/

/-- What comes of paying a total with the rounded amounts of a tender, and why. -/
inductive Reckoned (total cash card : Decimal) :
    PaymentMethod → Except SettlementStop Payment → Prop where
  | card : Reckoned total cash card .card (.ok ⟨.card, .zero, total, .zero⟩)
  | cashShort (hshort : cash.value < total.value) :
      Reckoned total cash card .cash (.error (.refused (.insufficientPayment total cash)))
  | cashEnough {change : Decimal} (henough : total.value ≤ cash.value)
      (hchange : change.value = cash.value - total.value) :
      Reckoned total cash card .cash (.ok ⟨.cash, cash, .zero, change⟩)
  | cashOver {change : Decimal} (hover : total.value < cash.value)
      (hchange : change.value = cash.value - total.value) :
      Reckoned total cash card .cashThenCard (.ok ⟨.cash, cash, .zero, change⟩)
  | cashFirst {rest : Decimal} (hwithin : cash.value ≤ total.value)
      (hrest : rest.value = total.value - cash.value) :
      Reckoned total cash card .cashThenCard (.ok ⟨.cashThenCard, cash, rest, .zero⟩)
  | cardOver (hover : total.value < card.value) :
      Reckoned total cash card .cardThenCash (.error (.refused (.cardOverpayment card total)))
  | cardShort {rest : Decimal} (hwithin : card.value ≤ total.value)
      (hrest : rest.value = total.value - card.value) (hshort : cash.value < rest.value) :
      Reckoned total cash card .cardThenCash
        (.error (.refused (.insufficientPayment rest cash)))
  | cardWhole {change : Decimal} (hwhole : card.value = total.value) (hcash : 0 ≤ cash.value)
      (hchange : change.value = cash.value) :
      Reckoned total cash card .cardThenCash (.ok ⟨.card, cash, card, change⟩)
  | cardFirst {change : Decimal} (hpart : card.value < total.value)
      (henough : total.value - card.value ≤ cash.value)
      (hchange : change.value = cash.value + card.value - total.value) :
      Reckoned total cash card .cardThenCash (.ok ⟨.cardThenCash, cash, card, change⟩)

variable {total cash card : Decimal}

theorem reckoned_payCash (htotal : IsMoney 1 total) (hcash : IsMoney 1 cash) :
    Reckoned total cash card .cash (payCash total cash) := by
  rw [payCash_eq]
  split
  · rename_i hshort
    exact .cashShort (Decimal.lt_iff_value_lt.1 hshort)
  · rename_i henough
    rw [Decimal.lt_iff_value_lt, not_lt] at henough
    obtain ⟨change, hminus, hchange, -⟩ := exists_reckon_minus hcash htotal (by decide)
    rw [hminus]
    exact .cashEnough henough hchange

theorem reckoned_payCashThenCard (htotal : IsMoney 1 total) (hcash : IsMoney 1 cash) :
    Reckoned total cash card .cashThenCard (payCashThenCard total cash) := by
  rw [payCashThenCard_eq]
  split
  · rename_i hover
    obtain ⟨change, hminus, hchange, -⟩ := exists_reckon_minus hcash htotal (by decide)
    rw [hminus]
    exact .cashOver (Decimal.lt_iff_value_lt.1 hover) hchange
  · rename_i hwithin
    rw [Decimal.lt_iff_value_lt, not_lt] at hwithin
    obtain ⟨rest, hminus, hrest, -⟩ := exists_reckon_minus htotal hcash (by decide)
    rw [hminus]
    exact .cashFirst hwithin hrest

theorem reckoned_payCardThenCash (htotal : IsMoney 1 total) (hcash : IsMoney 1 cash)
    (hcard : IsMoney 1 card) :
    Reckoned total cash card .cardThenCash (payCardThenCash total cash card) := by
  rw [payCardThenCash_eq]
  split
  · rename_i hover
    exact .cardOver (Decimal.lt_iff_value_lt.1 hover)
  · rename_i hwithin
    rw [Decimal.lt_iff_value_lt, not_lt] at hwithin
    obtain ⟨rest, hrest, hvalue⟩ := exists_shortfall_of_le htotal hcard (by decide) hwithin
    rw [hrest, ok_bind]
    split
    · rename_i hshort
      exact .cardShort hwithin hvalue (Decimal.lt_iff_value_lt.1 hshort)
    · rename_i henough
      rw [Decimal.lt_iff_value_lt, not_lt, hvalue] at henough
      obtain ⟨paid, hplus, hpaid, hmoney⟩ := exists_reckon_plus hcash hcard (by decide)
      have hcovered : total.value ≤ paid.value := by linarith
      obtain ⟨change, hshortfall, hchange⟩ :=
        exists_shortfall_of_le hmoney htotal (by decide) hcovered
      rw [hpaid] at hchange
      rw [hplus, ok_bind, hshortfall, ok_map]
      -- The label depends on whether the card leaves a rest.
      by_cases hzero : rest.isZero = true
      · have hwhole : card.value = total.value := by
          linarith [Decimal.isZero_iff.1 hzero]
        rw [if_pos hzero]
        exact .cardWhole hwhole (by linarith) (by linarith)
      · have hpart : card.value < total.value := by
          refine lt_of_le_of_ne hwithin fun hwhole => hzero ?_
          rw [Decimal.isZero_iff, hvalue, hwhole, sub_self]
        rw [if_neg hzero]
        exact .cardFirst hpart henough hchange

/-- **Every payment is one of the cases.** -/
theorem reckoned_pay {tender : Tender} (htotal : IsMoney 1 total)
    (hcash : IsMoney 1 (roundMoney tender.cash)) (hcard : IsMoney 1 (roundMoney tender.card)) :
    Reckoned total (roundMoney tender.cash) (roundMoney tender.card) tender.method
      (pay total tender) := by
  unfold pay
  cases tender.method with
  | cash => exact reckoned_payCash htotal hcash
  | card => exact .card
  | cashThenCard => exact reckoned_payCashThenCard htotal hcash
  | cardThenCash => exact reckoned_payCardThenCash htotal hcash hcard

/-! ### Accounting -/

/-- Where the money came from, by the recorded method. -/
def Payment.Sourced (p : Payment) (due : ℚ) : Prop :=
  match p.method with
  | .cash => p.card.value = 0
  | .card => p.card.value = due ∧ p.cash.value = p.change.value
  | .cashThenCard => p.change.value = 0 ∧ 0 ≤ p.card.value
  | .cardThenCash => p.card.value < due ∧ p.cash.value - p.change.value = due - p.card.value

structure Payment.Balanced (p : Payment) (due : ℚ) : Prop where
  sum : p.cash.value + p.card.value - p.change.value = due
  sourced : p.Sourced due

/-- What a refusal says is so. -/
def Justified (due : ℚ) : Refusal → Prop
  | .insufficientPayment required paid => paid.value < required.value
  | .cardOverpayment card total => total.value = due ∧ due < card.value

/-- The amounts that a method accepts; no amount is looked at where the card takes the rest. -/
def Covers (due cash card : ℚ) : PaymentMethod → Prop
  | .card | .cashThenCard => True
  | .cash => due ≤ cash
  | .cardThenCash => card ≤ due ∧ due ≤ cash + card

namespace Reckoned

variable {method : PaymentMethod} {p : Payment}

theorem balanced (h : Reckoned total cash card method (.ok p)) : p.Balanced total.value := by
  cases h with
  | card => exact ⟨by simp, rfl, rfl⟩
  | cashEnough henough hchange => exact ⟨by simp [hchange], Decimal.value_zero⟩
  | cashOver hover hchange => exact ⟨by simp [hchange], Decimal.value_zero⟩
  | cashFirst hwithin hrest =>
    refine ⟨by simp [hrest], Decimal.value_zero, ?_⟩
    show 0 ≤ Decimal.value _
    linarith
  | cardWhole hwhole hcash hchange =>
    exact ⟨by simp [hchange, hwhole], hwhole, hchange.symm⟩
  | cardFirst hpart henough hchange =>
    refine ⟨?_, hpart, ?_⟩ <;> simp only [hchange] <;> ring

/-- Amounts that are looked at are recorded as they were handed over. -/
theorem records (h : Reckoned total cash card method (.ok p)) :
    (method ≠ .card → p.cash = cash) ∧ (method = .cardThenCash → p.card = card) := by
  cases h <;> simp

theorem justified {stop : SettlementStop} (h : Reckoned total cash card method (.error stop)) :
    ∃ r, stop = .refused r ∧ Justified total.value r := by
  cases h with
  | cashShort hshort => exact ⟨_, rfl, hshort⟩
  | cardOver hover => exact ⟨_, rfl, rfl, hover⟩
  | cardShort hwithin hrest hshort => exact ⟨_, rfl, hshort⟩

theorem accepted_iff {result : Except SettlementStop Payment}
    (h : Reckoned total cash card method result) :
    (∃ p, result = .ok p) ↔ Covers total.value cash.value card.value method := by
  cases h with
  | card => simp [Covers]
  | cashShort hshort => simpa [Covers] using hshort
  | cashEnough henough => simpa [Covers] using henough
  | cashOver => simp [Covers]
  | cashFirst => simp [Covers]
  | cardOver hover => simp [Covers, hover.not_ge]
  | cardShort hwithin hrest hshort =>
    have huncovered : cash.value + card.value < total.value := by linarith
    simp [Covers, huncovered]
  | cardWhole hwhole hcash => simp [Covers, hwhole, hcash]
  | cardFirst hpart henough =>
    have hcovered : total.value ≤ cash.value + card.value := by linarith
    simp [Covers, hpart.le, hcovered]

end Reckoned

/-! ### Sane amounts -/

/-- No amount is negative, the card is not charged more than is due, and the change comes out
    of the cash. -/
structure Payment.Sane (p : Payment) (due : ℚ) : Prop where
  cash : 0 ≤ p.cash.value
  card : 0 ≤ p.card.value
  charge : p.card.value ≤ due
  change : 0 ≤ p.change.value
  changeWithin : p.change.value ≤ p.cash.value

/-- The amount that a split payment takes first is not negative. -/
def FirstNonneg (cash card : ℚ) : PaymentMethod → Prop
  | .cash | .card => True
  | .cashThenCard => 0 ≤ cash
  | .cardThenCash => 0 ≤ card

namespace Reckoned

variable {method : PaymentMethod} {p : Payment}

/-- With a total that is not negative, only the amount taken first can make a payment
    insane. -/
theorem sane_iff (htotal : 0 ≤ total.value) (h : Reckoned total cash card method (.ok p)) :
    p.Sane total.value ↔ FirstNonneg cash.value card.value method := by
  have hzero := Decimal.value_zero
  cases h with
  | card => exact iff_of_true ⟨hzero.ge, htotal, le_rfl, hzero.ge, le_rfl⟩ trivial
  | cashEnough henough hchange =>
    refine iff_of_true ⟨?_, hzero.ge, ?_, ?_, ?_⟩ trivial <;> simp only <;> linarith
  | cashOver hover hchange =>
    have hcash : 0 ≤ cash.value := by linarith
    refine iff_of_true ⟨hcash, hzero.ge, ?_, ?_, ?_⟩ hcash <;> simp only <;> linarith
  | cashFirst hwithin hrest =>
    constructor
    · intro hsane
      exact hsane.cash
    · intro hcash
      replace hcash : 0 ≤ cash.value := hcash
      refine ⟨hcash, ?_, ?_, hzero.ge, ?_⟩ <;> simp only <;> linarith
  | cardWhole hwhole hcash hchange =>
    have hcard : 0 ≤ card.value := by linarith
    exact iff_of_true ⟨hcash, hcard, hwhole.le, by rwa [hchange], hchange.le⟩ hcard
  | cardFirst hpart henough hchange =>
    constructor
    · intro hsane
      exact hsane.card
    · intro hcard
      replace hcard : 0 ≤ card.value := hcard
      refine ⟨?_, hcard, hpart.le, ?_, ?_⟩ <;> simp only <;> linarith

/-- Only a negative amount of cash that is taken first overcharges the card. -/
theorem charge_le_iff (htotal : 0 ≤ total.value)
    (h : Reckoned total cash card method (.ok p)) :
    p.card.value ≤ total.value ↔ (method = .cashThenCard → 0 ≤ cash.value) := by
  cases h with
  | card => simp
  | cashEnough => simpa using htotal
  | cashOver hover => simpa using iff_of_true htotal (htotal.trans hover.le)
  | cashFirst hwithin hrest => simp [hrest]
  | cardWhole hwhole => simp [hwhole]
  | cardFirst hpart => simpa using hpart.le

end Reckoned

end Settlement

/-! ### Settlements -/

def Transaction.payment (t : Transaction) : Settlement.Payment :=
  ⟨t.method, t.cash, t.card, t.change⟩

section Settle

variable {s : Summary} {tender : Tender} {now : Timestamp}

theorem settle_eq (s : Summary) (tender : Tender) (now : Timestamp) :
    settle s tender now =
      (fun p => ⟨p.method, s, p.cash, p.card, p.change, now⟩) <$>
        Settlement.pay (roundMoney s.total) tender := by
  unfold settle
  cases Settlement.pay (roundMoney s.total) tender <;> rfl

theorem settle_eq_ok_iff {t : Transaction} :
    settle s tender now = .ok t ↔
      Settlement.pay (roundMoney s.total) tender = .ok t.payment ∧
        t.summary = s ∧ t.date = now := by
  rw [settle_eq, map_eq_ok_iff]
  constructor
  · rintro ⟨p, hp, rfl⟩
    exact ⟨hp, rfl, rfl⟩
  · rintro ⟨hp, rfl, rfl⟩
    exact ⟨t.payment, hp, rfl⟩

theorem settle_eq_error_iff {stop : SettlementStop} :
    settle s tender now = .error stop ↔
      Settlement.pay (roundMoney s.total) tender = .error stop := by
  rw [settle_eq]
  cases Settlement.pay (roundMoney s.total) tender <;> simp

theorem exists_settle_iff :
    (∃ t, settle s tender now = .ok t) ↔
      ∃ p, Settlement.pay (roundMoney s.total) tender = .ok p := by
  rw [settle_eq]
  cases Settlement.pay (roundMoney s.total) tender <;> simp

theorem reckoned_settle (htotal : |s.total.value| < centsLimit)
    (hcash : |tender.cash.value| < centsLimit) (hcard : |tender.card.value| < centsLimit) :
    Settlement.Reckoned (roundMoney s.total) (roundMoney tender.cash) (roundMoney tender.card)
      tender.method (Settlement.pay (roundMoney s.total) tender) :=
  Settlement.reckoned_pay (Settlement.isMoney_roundMoney htotal)
    (Settlement.isMoney_roundMoney hcash) (Settlement.isMoney_roundMoney hcard)

theorem nearestCents_value (d : Decimal) : nearestCents d.value = (roundMoney d).value :=
  (value_roundMoney d).symm

/-- **The accounts of a settlement.**  Below `10 ^ 26` in size a settlement takes in exactly the
    rounded total, from where its method says, out of the amounts that were handed over.  A
    refusal has its reason, and only tenders that do not cover the total are refused. -/
theorem settle_accounts (s : Summary) (tender : Tender) (now : Timestamp)
    (htotal : |s.total.value| < centsLimit) (hcash : |tender.cash.value| < centsLimit)
    (hcard : |tender.card.value| < centsLimit) :
    (∀ t, settle s tender now = .ok t →
      t.payment.Balanced (nearestCents s.total.value) ∧ t.summary = s ∧
      (tender.method ≠ .card → t.cash = roundMoney tender.cash) ∧
      (tender.method = .cardThenCash → t.card = roundMoney tender.card)) ∧
    (∀ stop, settle s tender now = .error stop →
      ∃ r, stop = .refused r ∧ Settlement.Justified (nearestCents s.total.value) r) ∧
    ((∃ t, settle s tender now = .ok t) ↔
      Settlement.Covers (nearestCents s.total.value) (nearestCents tender.cash.value)
        (nearestCents tender.card.value) tender.method) := by
  have hreckoned := reckoned_settle htotal hcash hcard
  simp only [nearestCents_value]
  refine ⟨?_, ?_, ?_⟩
  · intro t ht
    obtain ⟨hpay, hsummary, -⟩ := settle_eq_ok_iff.1 ht
    rw [hpay] at hreckoned
    exact ⟨hreckoned.balanced, hsummary, hreckoned.records⟩
  · intro stop hstop
    rw [settle_eq_error_iff.1 hstop] at hreckoned
    exact hreckoned.justified
  · rw [exists_settle_iff]
    exact hreckoned.accepted_iff

end Settle

namespace Sample

def amount (text : String) : Decimal := (Literal.plain? text.toList).getD .zero

def oddSummary : Summary := { total := amount "14.005" }

def oddTender : Tender :=
  { method := .cardThenCash, cash := amount "5.015", card := amount "9.995" }

def oddTransaction : Transaction :=
  { method := .cardThenCash
    summary := oddSummary
    cash := amount "5.02"
    card := amount "10.00"
    change := amount "1.02"
    date := .epoch }

end Sample

/-- 14.005 is due as 14.00; 9.995 by card and 5.015 in cash are taken as 10.00 and 5.02. -/
theorem settle_oddTender :
    |Sample.oddSummary.total.value| < centsLimit ∧ |Sample.oddTender.cash.value| < centsLimit ∧
    |Sample.oddTender.card.value| < centsLimit ∧
    settle Sample.oddSummary Sample.oddTender .epoch = .ok Sample.oddTransaction ∧
    Sample.oddTransaction.payment.Balanced 14 := by
  have htotal : |Sample.oddSummary.total.value| < centsLimit := by decide +kernel
  have hcash : |Sample.oddTender.cash.value| < centsLimit := by decide +kernel
  have hcard : |Sample.oddTender.card.value| < centsLimit := by decide +kernel
  have hdue : nearestCents Sample.oddSummary.total.value = 14 := by decide +kernel
  have hsettle : settle Sample.oddSummary Sample.oddTender .epoch = .ok Sample.oddTransaction := by
    decide +kernel
  obtain ⟨haccounts, -⟩ :=
    settle_accounts Sample.oddSummary Sample.oddTender .epoch htotal hcash hcard
  obtain ⟨hbalanced, -⟩ := haccounts _ hsettle
  rw [hdue] at hbalanced
  exact ⟨htotal, hcash, hcard, hsettle, hbalanced⟩

/-- **When the amounts of a settlement are sane.**  For a total that is not negative they are
    exactly where the amount that the method takes first is not negative; the card is charged
    more than the total exactly where that amount is cash below zero. -/
theorem settle_sane_iff {s : Summary} {tender : Tender} {now : Timestamp} {t : Transaction}
    (hnonneg : 0 ≤ s.total.value)
    (htotal : |s.total.value| < centsLimit) (hcash : |tender.cash.value| < centsLimit)
    (hcard : |tender.card.value| < centsLimit) (h : settle s tender now = .ok t) :
    (t.payment.Sane (nearestCents s.total.value) ↔
      Settlement.FirstNonneg (nearestCents tender.cash.value) (nearestCents tender.card.value)
        tender.method) ∧
    (t.card.value ≤ nearestCents s.total.value ↔
      (tender.method = .cashThenCard → 0 ≤ nearestCents tender.cash.value)) := by
  have hreckoned := reckoned_settle htotal hcash hcard
  obtain ⟨hpay, -⟩ := settle_eq_ok_iff.1 h
  rw [hpay] at hreckoned
  simp only [nearestCents_value]
  exact ⟨hreckoned.sane_iff (roundMoney_nonneg hnonneg),
    hreckoned.charge_le_iff (roundMoney_nonneg hnonneg)⟩

namespace Sample

def fourteen : Summary := { nonTaxable := .ofUInt32 14, total := .ofUInt32 14 }

/-- Ten by card, twenty in cash and sixteen back. -/
def purseTransaction : Transaction :=
  { method := .cardThenCash
    summary := fourteen
    cash := .ofUInt32 20
    card := .ofUInt32 10
    change := .ofUInt32 16
    date := .epoch }

end Sample

theorem settle_purse :
    0 ≤ Sample.fourteen.total.value ∧ |Sample.fourteen.total.value| < centsLimit ∧
    |Sample.purse.cash.value| < centsLimit ∧ |Sample.purse.card.value| < centsLimit ∧
    settle Sample.fourteen Sample.purse .epoch = .ok Sample.purseTransaction ∧
    Sample.purseTransaction.payment.Sane 14 := by
  have hnonneg : 0 ≤ Sample.fourteen.total.value := by decide +kernel
  have htotal : |Sample.fourteen.total.value| < centsLimit := by decide +kernel
  have hcash : |Sample.purse.cash.value| < centsLimit := by decide +kernel
  have hcard : |Sample.purse.card.value| < centsLimit := by decide +kernel
  have hdue : nearestCents Sample.fourteen.total.value = 14 := by decide +kernel
  have hfirst : 0 ≤ nearestCents Sample.purse.card.value := by decide +kernel
  have hsettle : settle Sample.fourteen Sample.purse .epoch = .ok Sample.purseTransaction := by
    decide +kernel
  obtain ⟨hsane, -⟩ := settle_sane_iff hnonneg htotal hcash hcard hsettle
  rw [hdue] at hsane
  exact ⟨hnonneg, htotal, hcash, hcard, hsettle, hsane.2 hfirst⟩

namespace Sample

/-- Five short in cash, which is handed over first. -/
def owing : Tender := { method := .cashThenCard, cash := (Decimal.ofUInt32 5).neg }

/-- Ten back on the card, which is taken first, and the rest in cash. -/
def creditNote : Tender :=
  { method := .cardThenCash, cash := .ofUInt32 24, card := (Decimal.ofUInt32 10).neg }

end Sample

/-- A negative amount that is taken first is not refused.  In cash it is charged to the card,
    19 for a total of 14; on the card it is paid out of the cash. -/
theorem settle_negativeCash :
    0 ≤ Sample.fourteen.total.value ∧ nearestCents Sample.fourteen.total.value = 14 ∧
    |Sample.fourteen.total.value| < centsLimit ∧
    (|Sample.owing.cash.value| < centsLimit ∧ |Sample.owing.card.value| < centsLimit ∧
      ∃ t, settle Sample.fourteen Sample.owing .epoch = .ok t ∧
        t.cash.value = -5 ∧ t.card.value = 19 ∧ ¬t.payment.Sane 14) ∧
    |Sample.creditNote.cash.value| < centsLimit ∧ |Sample.creditNote.card.value| < centsLimit ∧
      ∃ t, settle Sample.fourteen Sample.creditNote .epoch = .ok t ∧
        t.card.value = -10 ∧ ¬t.payment.Sane 14 := by
  refine ⟨by decide +kernel, by decide +kernel, by decide +kernel, ⟨by decide +kernel,
    by decide +kernel, ?_⟩, by decide +kernel, by decide +kernel, ?_⟩
  · refine ⟨⟨.cashThenCard, Sample.fourteen, Sample.owing.cash, .ofUInt32 19, .zero, .epoch⟩,
      by decide +kernel, by decide +kernel, by decide +kernel, ?_⟩
    intro hsane
    exact absurd hsane.charge (by decide +kernel)
  · refine ⟨⟨.cardThenCash, Sample.fourteen, .ofUInt32 24, Sample.creditNote.card, .zero, .epoch⟩,
      by decide +kernel, by decide +kernel, ?_⟩
    intro hsane
    exact absurd hsane.card (by decide +kernel)

end PointOfSale

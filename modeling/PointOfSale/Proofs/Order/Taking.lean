/-
  PointOfSale/Proofs/Order/Taking.lean
  ====================================
  **Whether taking stock adds to it.**  What a selection consumes is a product of figures
  that may have any sign.  On amounts in cents a movement leaves no more than there was
  exactly if the difference, rounded to cents, is no more (`Withdraws`).  It is so where
  the consumed amount is not negative, and never where a cent or more comes back
  (`take_adds_iff`).
-/
import PointOfSale.Proofs.Decimal.Restoring
import PointOfSale.Proofs.Ledger.Amounts
import PointOfSale.Proofs.Order.Execution
import PointOfSale.Proofs.Order.Request

namespace PointOfSale

open Decimal (fitted fitted_mono fitted_of_heldAt gives_sub)

/-! ### Rounding to an amount -/

/-- A number is rounded to at most a number of cents if it is less than half a cent more, or
    half a cent more than an even number. -/
theorem roundMoney_le_iff {u : Decimal} {x : ℚ} (hx : IsCents x) :
    (roundMoney u).value ≤ x ↔
      u.value < x + 1 / 200 ∨ u.value = x + 1 / 200 ∧ IsEvenCents x := by
  obtain ⟨n, hn⟩ := isCents_iff.1 hx
  have hround : (roundMoney u).value ≤ x ↔ halfEven (u.value * 100) ≤ n := by
    rw [value_roundMoney, div_le_iff₀ (by norm_num), hn]
    exact Int.cast_le
  have hnear := abs_le.1 (nearestEven_halfEven (u.value * 100)).abs_sub_le
  rw [hround, isEvenCents_iff hn]
  rcases lt_trichotomy u.value (x + 1 / 200) with hlt | heq | hgt
  · have hless : halfEven (u.value * 100) < n + 1 := by
      have hrat : (halfEven (u.value * 100) : ℚ) < n + 1 := by linarith [hnear.1]
      exact_mod_cast hrat
    exact iff_of_true (by omega) (.inl hlt)
  · have htie : u.value * 100 = n + 1 / 2 := by
      rw [heq, add_mul, hn]
      norm_num
    rw [htie, halfEven_add_half]
    constructor
    · intro hle
      exact .inr ⟨heq, by omega⟩
    · rintro (hlt | ⟨-, heven⟩)
      · exact absurd heq hlt.ne
      · omega
  · have hmore : n < halfEven (u.value * 100) := by
      have hrat : (n : ℚ) < halfEven (u.value * 100) := by linarith [hnear.2]
      exact_mod_cast hrat
    refine iff_of_false (by omega) ?_
    rintro (hlt | ⟨heq, -⟩)
    · exact absurd hlt (not_lt.2 hgt.le)
    · exact absurd heq hgt.ne'

/-! ### One movement -/

/-- Taking the movement off an amount leaves no more than the amount. -/
def Movement.Withdraws (m : Movement) (x : ℚ) : Prop :=
  fitted (x - m.amount.value) < x + 1 / 200 ∨
    fitted (x - m.amount.value) = x + 1 / 200 ∧ IsEvenCents x

namespace Movement

variable {m : Movement}

theorem withdraws_of_nonneg (h : 0 ≤ m.amount.value) (available : Decimal) :
    m.Withdraws available.value := by
  have hle : fitted (available.value - m.amount.value) ≤ available.value :=
    Decimal.fitted_le_value (by linarith)
  exact .inl (by linarith)

theorem not_withdraws {x : ℚ} (hx : IsCents x) (hlimit : |x| < centsLimit)
    (h : m.amount.value ≤ -(1 / 100)) : ¬m.Withdraws x := by
  -- a cent more than the amount is held by a decimal, so it is not fitted down
  have hcent : IsCents (x + 1 / 100) := hx.add (isCents_iff.2 ⟨1, by norm_num⟩)
  have hsize : |x + 1 / 100| ≤ 3 * centsLimit := by
    have hsum := abs_add_le x (1 / 100)
    have hsmall : |(1 / 100 : ℚ)| ≤ centsLimit := by norm_num [centsLimit, abs_of_pos]
    linarith [abs_nonneg x]
  have hmore := fitted_mono (show x + 1 / 100 ≤ x - m.amount.value by linarith)
  rw [fitted_of_heldAt (by decide) (hcent.heldAt hsize)] at hmore
  rintro (hlt | ⟨heq, -⟩)
  · linarith
  · linarith

end Movement

/-! ### Stocks that are no larger -/

/-- No amount is larger than it was. -/
def Stock.AtMost (after before : Stock) : Prop :=
  ∀ key x, amountValue? before.amounts key = some x →
    ∃ y, amountValue? after.amounts key = some y ∧ y ≤ x

def Stock.OnlyCents (stock : Stock) : Prop :=
  ∀ key x, amountValue? stock.amounts key = some x → IsCents x

theorem Stock.InCents.onlyCents {stock : Stock} (h : stock.InCents) : stock.OnlyCents :=
  fun _ _ hx => h.isCents hx

namespace Stock.AtMost

theorem refl (stock : Stock) : stock.AtMost stock := fun _ x hx => ⟨x, hx, le_rfl⟩

theorem trans {a b c : Stock} (hab : a.AtMost b) (hbc : b.AtMost c) : a.AtMost c := by
  intro key x hx
  obtain ⟨y, hy, hyx⟩ := hbc key x hx
  obtain ⟨z, hz, hzy⟩ := hab key y hy
  exact ⟨z, hz, hzy.trans hyx⟩

end Stock.AtMost

namespace Ledger

variable {stock moved : Stock} {s : Selection}

/-- A take stores the rounded difference under its key, and nothing anywhere else. -/
theorem exists_of_take (h : move Operation.take stock s = .ok moved) :
    ∃ (m : Movement) (available u : Decimal), Movement.ofSelection stock s = .ok m ∧
      amountValue? stock.amounts m.key = some available.value ∧
      u.value = fitted (available.value - m.amount.value) ∧
      ∀ key, amountValue? moved.amounts key =
        if key = m.key then some (roundMoney u).value else amountValue? stock.amounts key := by
  obtain ⟨m, amounts, hm, hamounts, rfl⟩ := move_eq_ok_iff.1 h
  obtain ⟨entry, available, u, hentry, havailable, hu, rfl⟩ := moveAmount_eq_ok_iff.1 hamounts
  refine ⟨m, available, u, hm, amountValue?_of_number hentry havailable, ?_, ?_⟩
  · exact (gives_sub available m.amount).value (Operation.apply_eq_ok_iff.1 hu)
  · intro key
    rw [Stock.amounts_withAmounts, amountValue?_insert,
      value_roundMoney_of_isCents (isCents_roundMoney u)]

/-- **A take adds nothing** exactly if its movement withdraws from the amount under its key. -/
theorem atMost_iff_of_take (hcents : stock.OnlyCents)
    (h : move Operation.take stock s = .ok moved) :
    ∃ m x, Movement.ofSelection stock s = .ok m ∧ amountValue? stock.amounts m.key = some x ∧
      (∃ available : Decimal, available.value = x) ∧
      (moved.AtMost stock ↔ m.Withdraws x) := by
  obtain ⟨m, available, u, hm, hx, hu, hstored⟩ := exists_of_take h
  refine ⟨m, available.value, hm, hx, ⟨available, rfl⟩, ?_⟩
  have hrounded : (roundMoney u).value ≤ available.value ↔ m.Withdraws available.value := by
    rw [roundMoney_le_iff (hcents m.key _ hx), hu]
    rfl
  rw [← hrounded]
  constructor
  · intro hmost
    obtain ⟨y, hy, hle⟩ := hmost m.key available.value hx
    rw [hstored, if_pos rfl, Option.some.injEq] at hy
    exact hy ▸ hle
  · intro hle key x hkey
    rw [hstored]
    by_cases heq : key = m.key
    · rw [heq, hx, Option.some.injEq] at hkey
      rw [if_pos heq]
      exact ⟨_, rfl, hkey ▸ hle⟩
    · rw [if_neg heq]
      exact ⟨x, hkey, le_rfl⟩

theorem onlyCents_of_take (hcents : stock.OnlyCents)
    (h : move Operation.take stock s = .ok moved) : moved.OnlyCents := by
  obtain ⟨m, available, u, -, -, -, hstored⟩ := exists_of_take h
  intro key x hx
  rw [hstored] at hx
  by_cases heq : key = m.key
  · rw [if_pos heq, Option.some.injEq] at hx
    exact hx ▸ isCents_roundMoney u
  · rw [if_neg heq] at hx
    exact hcents key x hx

end Ledger

/-! ### Runs -/

/-- What selections that consume no negative amounts leave of a stock. -/
structure Stock.LessTaken (start now : Stock) : Prop where
  rules : start.SameRules now
  cents : now.OnlyCents
  atMost : now.AtMost start

namespace Stock.LessTaken

variable {start stock moved : Stock} {selections : List Selection} {s : Selection}

theorem step (h : start.LessTaken stock)
    (hnonneg : ∀ m, Movement.ofSelection start s = .ok m → 0 ≤ m.amount.value)
    (hmove : Ledger.move Operation.take stock s = .ok moved) : start.LessTaken moved := by
  obtain ⟨m, x, hm, -, ⟨available, rfl⟩, hiff⟩ := Ledger.atMost_iff_of_take h.cents hmove
  rw [Movement.ofSelection_of_sameRules h.rules] at hm
  have hwithdraws := Movement.withdraws_of_nonneg (hnonneg m hm) available
  exact ⟨h.rules.trans (Ledger.sameRules_of_move hmove), Ledger.onlyCents_of_take h.cents hmove,
    (hiff.2 hwithdraws).trans h.atMost⟩

theorem of_evaluate {ledger : Ledger} {o : LedgerOutcome} (hcents : start.OnlyCents)
    (hnonneg : ∀ s ∈ selections, ∀ m, Movement.ofSelection start s = .ok m →
      0 ≤ m.amount.value)
    (htracked : start.isTracked = true)
    (h : ledger.evaluate start selections Operation.take = .ok o) :
    start.LessTaken o.stock := by
  rw [Ledger.evaluate_of_tracked ledger selections Operation.take htracked] at h
  refine foldlM_prefix_induction (fun _ x => start.LessTaken x.stock)
    ⟨.refl start, hcents, .refl start⟩ ?_ h
  intro part s x next hpart hx hnext
  have hmem : s ∈ selections := hpart.subset (by simp)
  obtain ⟨moved, hmove, rfl⟩ := Ledger.step_eq_ok_iff.1 hnext
  exact hx.step (hnonneg s hmem) hmove

end Stock.LessTaken

/-! ### The desk -/

section Desk

variable {desk : Desk} {store after : ItemStore} {item : Item}

theorem exists_create_atMost_iff {s : Selection} {fresh : Uuid} {now : Timestamp}
    {line : OrderLine} (hitem : store.get? s.itemId = some item)
    (htracked : item.stock.isTracked = true) (hcents : item.stock.InCents)
    (hrun : (desk.create s fresh now).run store = .ok (line, after)) :
    ∃ later m x, after.get? s.itemId = some later ∧
      Movement.ofSelection item.stock s = .ok m ∧
      amountValue? item.stock.amounts m.key = some x ∧
      (∃ available : Decimal, available.value = x) ∧
      (later.stock.AtMost item.stock ↔ m.Withdraws x) := by
  obtain ⟨current, stock, hcurrent, hevaluate, rfl⟩ := Call.run_eq_ok_iff.1 hrun
  obtain rfl : item = current := Option.some.inj (hitem.symm.trans hcurrent)
  obtain ⟨quote, o, -, ho, -, rfl⟩ := Desk.create_eq_ok_iff.1 hevaluate
  rw [Ledger.evaluate_singleton _ _ _ htracked, map_eq_ok_iff] at ho
  obtain ⟨moved, hmove, rfl⟩ := ho
  obtain ⟨m, x, hm, hx, havailable, hiff⟩ :=
    Ledger.atMost_iff_of_take hcents.onlyCents hmove
  refine ⟨item.written moved, m, x, Call.get?_written_self moved rfl hitem, hm, hx, havailable, ?_⟩
  rw [Item.stock_written_of_tracked moved htracked]
  exact hiff

theorem exists_adjust_atMost {id : Uuid} {selections : List Selection}
    {amounts : Table AmountTable} (hitem : store.get? id = some item)
    (htracked : item.stock.isTracked = true) (hcents : item.stock.InCents)
    (hnonneg : ∀ s ∈ selections, ∀ m, Movement.ofSelection item.stock s = .ok m →
      0 ≤ m.amount.value)
    (hrun : (desk.adjust id selections Operation.take true).run store = .ok (amounts, after)) :
    ∃ later, after.get? id = some later ∧ later.stock.AtMost item.stock := by
  obtain ⟨current, stock, hcurrent, hevaluate, rfl⟩ := Call.run_eq_ok_iff.1 hrun
  obtain rfl : item = current := Option.some.inj (hitem.symm.trans hcurrent)
  simp only [Desk.adjust, bind_eq_ok_iff, pure_eq_ok_iff] at hevaluate
  obtain ⟨o, ho, heq⟩ := hevaluate
  cases heq
  refine ⟨item.written o.stock, Call.get?_written_self o.stock rfl hitem, ?_⟩
  rw [Item.stock_written_of_tracked o.stock htracked]
  exact (Stock.LessTaken.of_evaluate hcents.onlyCents hnonneg htracked ho).atMost

/-- **When taking adds no stock.**  A new order line leaves no amount larger exactly if its
    movement withdraws from the amount under its key.  It does if what it consumes is not
    negative, and does not if a cent or more of an amount in range comes back.  A row of
    selections that is taken leaves no amount larger if none of them consumes a negative
    amount. -/
theorem take_adds_iff (hitem : store.get? item.id = some item)
    (htracked : item.stock.isTracked = true) (hcents : item.stock.InCents) :
    (∀ s fresh now line after, s.itemId = item.id →
      (desk.create s fresh now).run store = .ok (line, after) →
      ∃ later m x, after.get? item.id = some later ∧
        Movement.ofSelection item.stock s = .ok m ∧
        amountValue? item.stock.amounts m.key = some x ∧
        (later.stock.AtMost item.stock ↔ m.Withdraws x) ∧
        (0 ≤ m.amount.value → later.stock.AtMost item.stock) ∧
        (|x| < centsLimit → m.amount.value ≤ -(1 / 100) → ¬later.stock.AtMost item.stock)) ∧
    ∀ selections amounts after,
      (desk.adjust item.id selections Operation.take true).run store = .ok (amounts, after) →
      (∀ s ∈ selections, ∀ m, Movement.ofSelection item.stock s = .ok m → 0 ≤ m.amount.value) →
      ∃ later, after.get? item.id = some later ∧ later.stock.AtMost item.stock := by
  refine ⟨?_, ?_⟩
  · intro s fresh now line after hfor hrun
    obtain ⟨later, m, x, hlater, hm, hx, ⟨available, havailable⟩, hiff⟩ :=
      exists_create_atMost_iff (hfor ▸ hitem) htracked hcents hrun
    refine ⟨later, m, x, hfor ▸ hlater, hm, hx, hiff, ?_, ?_⟩
    · intro hnonneg
      rw [hiff, ← havailable]
      exact Movement.withdraws_of_nonneg hnonneg available
    · intro hlimit hback
      rw [hiff]
      exact Movement.not_withdraws (hcents.isCents hx) hlimit hback
  · intro selections amounts after hrun hnonneg
    exact exists_adjust_atMost hitem htracked hcents hnonneg hrun

end Desk

namespace Sample

def mochaIn (store : ItemStore) : Option ℚ := do
  let item ← store.get? iceCream.id
  amountValue? item.stock.amounts "Mocha"

def tasting : List Selection := [portion "Vanilla" "(1 / 3)", portion "Mocha" "0.25"]

end Sample

open Sample in
/-- A portion of mocha and a tasting add to none of the two flavors. -/
theorem portions_add_nothing :
    (∃ line after later,
      (({} : Desk).create (portion "Mocha" "1.25") .nil .epoch).run shop = .ok (line, after) ∧
        after.get? iceCream.id = some later ∧ later.stock.AtMost iceCream.stock) ∧
    ∃ amounts after later,
      (({} : Desk).adjust iceCream.id tasting Operation.take true).run shop =
          .ok (amounts, after) ∧
        after.get? iceCream.id = some later ∧ later.stock.AtMost iceCream.stock := by
  have hitem : shop.get? iceCream.id = some iceCream := by decide
  obtain ⟨hcreate, hadjust⟩ :=
    @take_adds_iff {} shop iceCream hitem (by decide) (by decide +kernel)
  have hnonneg : ∀ s ∈ [portion "Mocha" "1.25"] ++ tasting,
      ∀ m ∈ (Movement.ofSelection iceCream.stock s).toOption, 0 ≤ m.amount.value := by
    decide +kernel
  constructor
  · have hok : ((({} : Desk).create (portion "Mocha" "1.25") .nil .epoch).run
        shop).toOption.isSome := by decide +kernel
    rcases hrun : (({} : Desk).create (portion "Mocha" "1.25") .nil .epoch).run shop with
      fault | ⟨line, after⟩
    · rw [hrun] at hok
      cases hok
    · obtain ⟨later, m, x, hlater, hm, -, -, hmost, -⟩ := hcreate _ _ _ _ _ rfl hrun
      exact ⟨line, after, later, rfl, hlater,
        hmost (hnonneg _ (by simp) m (toOption_eq_some_iff.2 hm))⟩
  · have hok : ((({} : Desk).adjust iceCream.id tasting Operation.take true).run
        shop).toOption.isSome := by decide +kernel
    rcases hrun : (({} : Desk).adjust iceCream.id tasting Operation.take true).run shop with
      fault | ⟨amounts, after⟩
    · rw [hrun] at hok
      cases hok
    · obtain ⟨later, hlater, hmost⟩ := hadjust _ _ _ hrun fun s hs m hm =>
        hnonneg s (List.mem_append_right _ hs) m (toOption_eq_some_iff.2 hm)
      exact ⟨amounts, after, later, rfl, hlater, hmost⟩

open Sample in
/-- A negative portion is taken from six and leaves seven, and so do two of a half. -/
theorem negativePortion_adds :
    iceCream.stock.isTracked = true ∧ iceCream.stock.InCents ∧ mochaIn shop = some 6 ∧
    (((({} : Desk).create (portion "Mocha" "-1") .nil .epoch).run shop).toOption.bind
      fun r => mochaIn r.2) = some 7 ∧
    (((({} : Desk).adjust iceCream.id [portion "Mocha" "(1 / -2)", portion "Mocha" "-0.5"]
      Operation.take true).run shop).toOption.bind fun r => mochaIn r.2) = some 7 := by
  decide +kernel

end PointOfSale

/-
  PointOfSale/Proofs/Ledger/Bookkeeping.lean
  ==========================================
  **What a run of the ledger may change.**  `Booked` says of an outcome how it stands to
  the stock that the run began with and to the selections taken so far: the rules and the
  keys are those of the beginning, an amount that no selection moves keeps its text, an
  amount that was moved has the text of an amount, and every report has the same keys.
  One more selection keeps this (`Booked.step`), so a run does, by induction over its
  selections (`Booked.run`).
-/
import PointOfSale.Proofs.Decimal.Amount
import PointOfSale.Proofs.Ledger.Amounts

namespace PointOfSale

namespace Ledger

variable {ledger : Ledger} {op : Operation} {stock : Stock} {o next last : LedgerOutcome}
  {s : Selection} {taken rest : List Selection}

/-- How an outcome stands to the stock at the beginning and the selections taken. -/
structure Booked (ledger : Ledger) (stock : Stock) (taken : List Selection)
    (o : LedgerOutcome) : Prop where
  rules : stock.SameRules o.stock
  keys : o.stock.amounts.keys = stock.amounts.keys
  untouched : ∀ key, (∀ s ∈ taken, ∀ m, Movement.ofSelection stock s = .ok m → m.key ≠ key) →
    o.stock.amounts.get? key = stock.amounts.get? key
  moved : ∀ s ∈ taken, ∃ m l, Movement.ofSelection stock s = .ok m ∧
    o.stock.amounts.get? m.key = some l ∧ IsAmountText l.text
  reported : ∀ key amounts, o.amounts.get? key = some amounts → amounts.keys = stock.amounts.keys
  latest : ∀ s ∈ taken.getLast?, o.amounts.get? (ledger.keyOf s) = some o.stock.amounts

/-- All that a step does: one amount that is there is written, and the amounts after that
    are reported. -/
theorem exists_written (h : ledger.step op o s = .ok next) :
    ∃ m d, Movement.ofSelection o.stock s = .ok m ∧ m.key ∈ o.stock.amounts.keys ∧
      next.stock = o.stock.withAmounts (o.stock.amounts.insert m.key ⟨amountText d⟩) ∧
      next.amounts = o.amounts.insert (ledger.keyOf s) next.stock.amounts := by
  obtain ⟨stock, hmove, rfl⟩ := step_eq_ok_iff.1 h
  obtain ⟨m, amounts, hm, hamounts, rfl⟩ := move_eq_ok_iff.1 hmove
  obtain ⟨entry, -, updated, hentry, -, -, rfl⟩ := moveAmount_eq_ok_iff.1 hamounts
  have hkey : m.key ∈ o.stock.amounts.keys := by
    rw [← Table.get?_isSome_iff, hentry]
    rfl
  exact ⟨m, roundMoney updated, hm, hkey, rfl, rfl⟩

theorem Booked.start (ledger : Ledger) (stock : Stock) : Booked ledger stock [] ⟨stock, ∅⟩ where
  rules := .refl stock
  keys := rfl
  untouched _ _ := rfl
  moved s hs := by cases hs
  reported key amounts h := by cases h
  latest s hs := by cases hs

theorem Booked.step (h : Booked ledger stock taken o) (hstep : ledger.step op o s = .ok next) :
    Booked ledger stock (taken ++ [s]) next := by
  obtain ⟨m, d, hm, hkey, hstock, hamounts⟩ := exists_written hstep
  -- the movement follows from the rules, which are still those of the beginning
  rw [Movement.ofSelection_of_sameRules h.rules] at hm
  have htable : next.stock.amounts = o.stock.amounts.insert m.key ⟨amountText d⟩ := by
    rw [hstock, Stock.amounts_withAmounts]
  have hkeys : next.stock.amounts.keys = stock.amounts.keys := by
    rw [htable, Table.keys_insert_of_mem _ hkey, h.keys]
  constructor
  case rules =>
    rw [hstock]
    exact h.rules.trans ⟨_, rfl⟩
  case keys => exact hkeys
  case untouched =>
    intro key hother
    have hne : key ≠ m.key := (hother s (by simp) m hm).symm
    rw [htable, Table.get?_insert_of_ne _ _ hne]
    apply h.untouched
    intro t ht
    exact hother t (List.mem_append_left _ ht)
  case moved =>
    intro t ht
    rcases List.mem_append.1 ht with ht | ht
    · obtain ⟨mt, l, hmt, hl, htext⟩ := h.moved t ht
      by_cases hsame : mt.key = m.key
      · -- moved once more, and written anew
        refine ⟨mt, ⟨amountText d⟩, hmt, ?_, isAmountText_amountText d⟩
        rw [htable, hsame, Table.get?_insert_self]
      · refine ⟨mt, l, hmt, ?_, htext⟩
        rw [htable, Table.get?_insert_of_ne _ _ hsame, hl]
    · rw [List.mem_singleton.1 ht]
      refine ⟨m, ⟨amountText d⟩, hm, ?_, isAmountText_amountText d⟩
      rw [htable, Table.get?_insert_self]
  case reported =>
    intro key amounts hget
    rw [hamounts, Table.get?_insert] at hget
    split at hget
    · cases hget
      exact hkeys
    · exact h.reported key amounts hget
  case latest =>
    intro t ht
    rw [List.getLast?_concat] at ht
    cases ht
    rw [hamounts, Table.get?_insert_self]

theorem Booked.run (h : Booked ledger stock taken o)
    (hrun : rest.foldlM (ledger.step op) o = .ok last) :
    Booked ledger stock (taken ++ rest) last := by
  induction rest generalizing taken o with
  | nil =>
    cases hrun
    rwa [List.append_nil]
  | cons s rest ih =>
    rw [List.foldlM_cons, bind_eq_ok_iff] at hrun
    obtain ⟨next, hnext, hlast⟩ := hrun
    have hbooked := ih (h.step hnext) hlast
    rwa [List.append_assoc] at hbooked

/-- **A run changes the amounts that its selections move**, and leaves texts of amounts
    there; rules, keys and all other texts stay, and what it reports last it returns. -/
theorem booked_of_evaluate {selections : List Selection} (htracked : stock.isTracked = true)
    (h : ledger.evaluate stock selections op = .ok o) : Booked ledger stock selections o := by
  rw [evaluate_of_tracked ledger selections op htracked] at h
  exact (Booked.start ledger stock).run h

end Ledger

namespace Sample

/-- Stock with amounts as they were typed in. -/
def tubs : Stock :=
  { isTracked := true
    dependsOn := { name := "Flavor", amounts := .ofList [("Mocha", ⟨"8"⟩), ("Vanilla", ⟨" 5.50 "⟩)] }
    decrementer := "Amount" }

def mochaScoop (amount : String) : Selection :=
  { itemId := .nil, choices := [⟨"Flavor", ⟨"Mocha"⟩⟩, ⟨"Amount", ⟨amount⟩⟩] }

def scoops : List Selection := [mochaScoop "0.125", mochaScoop "(15 / 8)"]

end Sample

/-- Mocha is moved twice under one report, 8 to 7.88 to 6.0; the blanks around the other
    amount stay. -/
theorem scoops_booked :
    Sample.tubs.isTracked = true ∧
    ∃ o, ({} : Ledger).evaluate Sample.tubs Sample.scoops Operation.take = .ok o ∧
      Ledger.Booked {} Sample.tubs Sample.scoops o ∧
      o.stock.amounts = .ofList [("Mocha", ⟨"6.0"⟩), ("Vanilla", ⟨" 5.50 "⟩)] := by
  refine ⟨rfl, ?_⟩
  have hrun : ∃ o, ({} : Ledger).evaluate Sample.tubs Sample.scoops Operation.take = .ok o ∧
      o.stock.amounts = .ofList [("Mocha", ⟨"6.0"⟩), ("Vanilla", ⟨" 5.50 "⟩)] :=
    ⟨_, rfl, by decide +kernel⟩
  obtain ⟨o, ho, hamounts⟩ := hrun
  exact ⟨o, ho, Ledger.booked_of_evaluate rfl ho, hamounts⟩

end PointOfSale

/-
  PointOfSale/Proofs/Order/DryRun.lean
  ====================================
  **What a dry run reports is what a committed call does.**  A quote and a preview
  together decide whether a selection can be ordered, at which price, and what is
  left after it; an adjustment answers the same whether it is written back or not
  (`dryRun_predicts`).
-/
import PointOfSale.Proofs.Ledger.Bookkeeping
import PointOfSale.Proofs.Order.Execution
import PointOfSale.Proofs.Order.Request

namespace PointOfSale

variable {desk : Desk} {store : ItemStore} {item : Item} {s : Selection}

/-! ### The ledger's report -/

namespace Ledger

/-- The identifier of an order line has no say in what the line takes. -/
theorem move_withId (op : Operation) (stock : Stock) (s : Selection) (id : Option Uuid) :
    move op stock { s with id } = move op stock s := rfl

/-- The amounts after a row of selections, as they are reported: under the key of the last
    selection, and without a selection as they were. -/
def reportedLast? (ledger : Ledger) (before : AmountTable) (selections : List Selection)
    (reported : Table AmountTable) : Option AmountTable :=
  match selections.getLast? with
  | some last => reported.get? (ledger.keyOf last)
  | none => some before

theorem reportedLast?_of_evaluate {ledger : Ledger} {stock : Stock}
    {selections : List Selection} {op : Operation} {o : LedgerOutcome}
    (htracked : stock.isTracked = true) (h : ledger.evaluate stock selections op = .ok o) :
    ledger.reportedLast? stock.amounts selections o.amounts = some o.stock.amounts := by
  rw [evaluate_of_tracked ledger _ op htracked] at h
  have hbooked := (Booked.start ledger stock).run h
  rw [reportedLast?]
  cases hlast : selections.getLast? with
  | none =>
    rw [List.getLast?_eq_none_iff.1 hlast] at h
    cases h
    rfl
  | some last => exact hbooked.latest last hlast

end Ledger

/-! ### Runs of the four calls -/

namespace Call

variable {α : Type}

theorem run_report {itemId : Uuid} (evaluate : Item → Except Fault α)
    (h : store.get? itemId = some item) :
    (report itemId evaluate).run store = (·, store) <$> evaluate item := by
  have hevaluate : (report itemId evaluate).evaluate item = (·, item.stock) <$> evaluate item := rfl
  rw [run_of_get? (report itemId evaluate) h, hevaluate, Functor.map_map]
  rfl

end Call

namespace Desk

theorem run_quote (choices : List Choice) (h : store.get? s.itemId = some item) :
    (desk.quote s.itemId choices).run store = (·, store) <$> desk.price item choices :=
  Call.run_report _ h

theorem run_preview_of_tracked (id : Option Uuid) (h : store.get? s.itemId = some item)
    (htracked : item.stock.isTracked = true) :
    (desk.preview { s with id }).run store =
      (fun moved => (some moved.amounts, store)) <$> Ledger.move .take item.stock s := by
  refine (Call.run_report _ h).trans ?_
  rw [Ledger.evaluate_singleton desk.ledger _ _ htracked, Ledger.move_withId]
  cases Ledger.move .take item.stock s <;> rfl

theorem run_preview_of_untracked (id : Option Uuid) (h : store.get? s.itemId = some item)
    (htracked : item.stock.isTracked = false) :
    (desk.preview { s with id }).run store = .ok (none, store) := by
  refine (Call.run_report _ h).trans ?_
  rw [Ledger.evaluate_of_untracked desk.ledger _ _ htracked]
  rfl

theorem run_create (fresh : Uuid) (now : Timestamp) (h : store.get? s.itemId = some item) :
    (desk.create s fresh now).run store = do
      let quote ← desk.price item s.choices
      let o ← desk.ledger.evaluate item.stock [s.withId (s.id.getD fresh)] Operation.take
      return (.ofSelection (s.id.getD fresh) item (s.withId (s.id.getD fresh)) quote now,
        (desk.create s fresh now).written store item o.stock) := by
  have hevaluate : (desk.create s fresh now).evaluate item = (do
      let quote ← desk.price item s.choices
      let o ← desk.ledger.evaluate item.stock [s.withId (s.id.getD fresh)] Operation.take
      return (.ofSelection (s.id.getD fresh) item (s.withId (s.id.getD fresh)) quote now,
        o.stock)) := rfl
  rw [Call.run_of_get? (desk.create s fresh now) h, hevaluate]
  simp only [map_bind, map_pure]

theorem run_adjust {itemId : Uuid} (selections : List Selection) (op : Operation) (commits : Bool)
    (h : store.get? itemId = some item) :
    (desk.adjust itemId selections op commits).run store = do
      let o ← desk.ledger.evaluate item.stock selections op
      return (o.amounts, (desk.adjust itemId selections op commits).written store item o.stock) := by
  have hevaluate : (desk.adjust itemId selections op commits).evaluate item = (do
      let o ← desk.ledger.evaluate item.stock selections op
      return (o.amounts, o.stock)) := rfl
  rw [Call.run_of_get? (desk.adjust itemId selections op commits) h, hevaluate]
  simp only [map_bind, map_pure]

end Desk

/-! ### Dry runs and commits -/

namespace Desk

/-- Once an item is priced, ordering a selection of it ends as the preview of the selection
    says, whatever its identifier. -/
theorem create_of_price {q : Quote} (fresh : Uuid) (now : Timestamp)
    (h : store.get? s.itemId = some item) (hq : desk.price item s.choices = .ok q) :
    match (desk.create s fresh now).run store with
    | .error fault => ∀ id, (desk.preview { s with id }).run store = .error fault
    | .ok (line, after) =>
      line.price = q.price ∧ line.tax = q.tax ∧
        ∃ amounts, (∀ id, (desk.preview { s with id }).run store = .ok (amounts, store)) ∧
          if item.stock.isTracked then
            ∃ saved, after.get? s.itemId = some saved ∧ amounts = some saved.stock.amounts
          else amounts = none ∧ after = store := by
  rw [run_create fresh now h, hq, ok_bind]
  cases htracked : item.stock.isTracked with
  | false =>
    rw [Ledger.evaluate_of_untracked desk.ledger _ _ htracked]
    refine ⟨rfl, rfl, none, ?_, rfl, ?_⟩
    · intro id
      exact run_preview_of_untracked id h htracked
    · exact Call.written_of_untracked _ store item.stock htracked
  | true =>
    have hpreview : ∀ id, (desk.preview { s with id }).run store =
        (fun moved => (some moved.amounts, store)) <$> Ledger.move .take item.stock s :=
      fun id => run_preview_of_tracked id h htracked
    rw [Ledger.evaluate_singleton desk.ledger _ _ htracked, Selection.withId, Ledger.move_withId]
    cases hmove : Ledger.move Operation.take item.stock s with
    | error fault =>
      intro id
      rw [hpreview id, hmove]
      rfl
    | ok moved =>
      refine ⟨rfl, rfl, some moved.amounts, ?_, item.written moved, ?_, ?_⟩
      · intro id
        rw [hpreview id, hmove]
        rfl
      · exact Call.get?_written_self moved rfl h
      · rw [Item.stock_written_of_tracked moved htracked]

/-- An adjustment that is written back leaves the amounts that it reports last. -/
theorem get?_of_run_adjust {itemId : Uuid} {selections : List Selection} {op : Operation}
    {o : LedgerOutcome} (h : store.get? itemId = some item)
    (htracked : item.stock.isTracked = true)
    (ho : desk.ledger.evaluate item.stock selections op = .ok o) :
    ∃ saved, ((desk.adjust itemId selections op true).written store item o.stock).get? itemId =
        some saved ∧
      desk.ledger.reportedLast? item.stock.amounts selections o.amounts =
        some saved.stock.amounts := by
  refine ⟨item.written o.stock, Call.get?_written_self o.stock rfl h, ?_⟩
  rw [Ledger.reportedLast?_of_evaluate htracked ho, Item.stock_written_of_tracked _ htracked]

end Desk

/-- **Dry runs predict commits.**  Ordering a selection fails with the fault of its quote, or
    else of its preview, and otherwise takes the price of the one and leaves the amounts of
    the other, whatever identifier is previewed; without tracked stock there are none, and the
    store stays as it is.  An adjustment answers the same with and without a commit, and the
    commit leaves the amounts that are reported for the last selection. -/
theorem dryRun_predicts (desk : Desk) (store : ItemStore) :
    (∀ (s : Selection) (fresh : Uuid) (now : Timestamp),
      match (desk.create s fresh now).run store with
      | .error fault =>
        (desk.quote s.itemId s.choices).run store = .error fault ∨
          (∃ q, (desk.quote s.itemId s.choices).run store = .ok (q, store)) ∧
            ∀ id, (desk.preview { s with id }).run store = .error fault
      | .ok (line, after) =>
        ∃ q amounts item, (desk.quote s.itemId s.choices).run store = .ok (q, store) ∧
          (∀ id, (desk.preview { s with id }).run store = .ok (amounts, store)) ∧
          line.price = q.price ∧ line.tax = q.tax ∧ store.get? s.itemId = some item ∧
          if item.stock.isTracked then
            ∃ saved, after.get? s.itemId = some saved ∧ amounts = some saved.stock.amounts
          else amounts = none ∧ after = store) ∧
    ∀ (itemId : Uuid) (selections : List Selection) (op : Operation),
      match (desk.adjust itemId selections op true).run store with
      | .error fault => (desk.adjust itemId selections op false).run store = .error fault
      | .ok (amounts, after) =>
        (desk.adjust itemId selections op false).run store = .ok (amounts, store) ∧
          ∃ item, store.get? itemId = some item ∧
            if item.stock.isTracked then
              ∃ saved, after.get? itemId = some saved ∧
                desk.ledger.reportedLast? item.stock.amounts selections amounts =
                  some saved.stock.amounts
            else after = store := by
  constructor
  · intro s fresh now
    cases hitem : store.get? s.itemId with
    | none =>
      rw [Call.run_of_not_found (desk.create s fresh now) hitem]
      left
      exact Call.run_of_not_found (desk.quote s.itemId s.choices) hitem
    | some item =>
      rw [Desk.run_quote s.choices hitem]
      cases hq : desk.price item s.choices with
      | error fault =>
        rw [Desk.run_create fresh now hitem, hq]
        exact .inl rfl
      | ok q =>
        have hcreate := Desk.create_of_price fresh now hitem hq
        rcases hrun : (desk.create s fresh now).run store with fault | ⟨line, after⟩
        · rw [hrun] at hcreate
          exact .inr ⟨⟨q, rfl⟩, hcreate⟩
        · rw [hrun] at hcreate
          obtain ⟨hprice, htax, amounts, hpreview, hstored⟩ := hcreate
          exact ⟨q, amounts, item, rfl, hpreview, hprice, htax, rfl, hstored⟩
  · intro itemId selections op
    cases hitem : store.get? itemId with
    | none =>
      rw [Call.run_of_not_found (desk.adjust itemId selections op true) hitem]
      exact Call.run_of_not_found (desk.adjust itemId selections op false) hitem
    | some item =>
      rw [Desk.run_adjust selections op true hitem, Desk.run_adjust selections op false hitem]
      cases ho : desk.ledger.evaluate item.stock selections op with
      | error fault => rfl
      | ok o =>
        refine ⟨rfl, item, rfl, ?_⟩
        cases htracked : item.stock.isTracked with
        | false => exact Call.written_of_untracked _ store o.stock htracked
        | true => exact Desk.get?_of_run_adjust hitem htracked ho

end PointOfSale

/-
  PointOfSale/Proofs/Order/Conservation.lean
  ==========================================
  **Stock is conserved over whole runs.**  `OrderBook` is the store together with
  the order lines that are live, each as it was last returned.  Whatever lines are
  created, edited and removed for a tracked item, in whatever order, and whichever
  of the calls fail: every amount is what it was at the start, less what the live
  lines consume under its key (`amounts_of_run`).

  `Balanced` is the invariant; the balance itself is `Covers`.  An edit breaks it
  between its two runs of the ledger, and there it holds for the lines without the
  edited one.
-/
import PointOfSale.Proofs.Ledger.Amounts
import PointOfSale.Proofs.Order.Execution
import PointOfSale.Proofs.Order.Request

namespace PointOfSale

open StoreProgram (execute)

/-- The store, and the live order lines as they were last returned. -/
structure OrderBook where
  store : ItemStore
  live : List OrderLine := []
  deriving DecidableEq

/-- A call about an order line.  Lines are edited and removed by their position among
    the live ones. -/
inductive LineCall where
  | create (s : Selection) (fresh : Uuid) (now : Timestamp)
  | update (position : Nat) (choices : List Choice) (quantity : UInt32) (now : Timestamp)
  | delete (position : Nat)
  deriving DecidableEq, Repr

/-- Whether a new line is for an item; the live ones are known to be. -/
def LineCall.IsFor (id : Uuid) : LineCall → Prop
  | create s _ _ => s.itemId = id
  | update _ _ _ _ | delete _ => True

namespace OrderBook

/-- What a call leaves behind: the store as it is by then, and other live lines if it
    succeeded. -/
def settle {α : Type} (book : OrderBook) (call : Call α) (live : α → List OrderLine) :
    OrderBook :=
  match execute call.program book.store with
  | (.ok a, store) => ⟨store, live a⟩
  | (.error _, store) => ⟨store, book.live⟩

def step (desk : Desk) (book : OrderBook) : LineCall → OrderBook
  | .create s fresh now => book.settle (desk.create s fresh now) fun line => book.live ++ [line]
  | .update position choices quantity now =>
    match book.live[position]? with
    | some line =>
      book.settle (desk.update line choices quantity now) fun updated =>
        book.live.set position updated
    | none => book
  | .delete position =>
    match book.live[position]? with
    | some line => book.settle (desk.delete line) fun _ => book.live.eraseIdx position
    | none => book

def run (desk : Desk) (book : OrderBook) (calls : List LineCall) : OrderBook :=
  calls.foldl (step desk) book

/-- The lines without the edited one, in an edit that succeeds. -/
def putAside (desk : Desk) (book : OrderBook) : LineCall → List (List OrderLine)
  | .update position choices quantity now =>
    match book.live[position]? with
    | some line =>
      match (desk.update line choices quantity now).run book.store with
      | .ok _ => [book.live.eraseIdx position]
      | .error _ => []
    | none => []
  | .create _ _ _ | .delete _ => []

/-- All rows of lines that the stock stands against in the course of a run. -/
def course (desk : Desk) : OrderBook → List LineCall → List (List OrderLine)
  | book, [] => [book.live]
  | book, c :: calls => book.live :: (book.putAside desk c ++ course desk (book.step desk c) calls)

theorem settle_eq {α : Type} (book : OrderBook) (call : Call α) (live : α → List OrderLine) :
    book.settle call live =
      match call.run book.store with
      | .ok (a, store) => ⟨store, live a⟩
      | .error _ => book := by
  unfold settle
  rw [Call.execute_program]
  cases call.run book.store <;> rfl

end OrderBook

/-! ### The invariant -/

def selectionsOf (live : List OrderLine) : List Selection := live.map OrderLine.selection

theorem selectionsOf_concat_perm (live : List OrderLine) (line : OrderLine) :
    (selectionsOf (live ++ [line])).Perm (line.selection :: selectionsOf live) :=
  (List.perm_append_singleton line live).map _

theorem selectionsOf_perm_eraseIdx {live : List OrderLine} {position : Nat} {line : OrderLine}
    (hline : live[position]? = some line) :
    (selectionsOf live).Perm (line.selection :: selectionsOf (live.eraseIdx position)) := by
  obtain ⟨hposition, hget⟩ := List.getElem?_eq_some_iff.1 hline
  rw [← hget]
  exact ((List.getElem_cons_eraseIdx_perm hposition).map OrderLine.selection).symm

theorem selectionsOf_set_perm {live : List OrderLine} {position : Nat} {line : OrderLine}
    (hline : live[position]? = some line) (updated : OrderLine) :
    (selectionsOf (live.set position updated)).Perm
      (updated.selection :: selectionsOf (live.eraseIdx position)) := by
  obtain ⟨hposition, -⟩ := List.getElem?_eq_some_iff.1 hline
  exact (List.set_perm_cons_eraseIdx hposition updated).map OrderLine.selection

/-- The item is there under its rules, its amounts cover the live lines, and these are
    all for it. -/
structure Balanced (item : Item) (book : OrderBook) : Prop where
  stored : ∃ now, book.store.get? item.id = some now ∧ item.stock.SameRules now.stock ∧
    Covers item.stock (selectionsOf book.live) now.stock.amounts
  ofItem : ∀ line ∈ book.live, line.itemId = item.id

namespace Balanced

variable {desk : Desk} {item : Item} {book : OrderBook}

theorem initial {store : ItemStore} (hitem : store.get? item.id = some item) :
    Balanced item ⟨store, []⟩ := by
  refine ⟨⟨item, hitem, .refl _, ?_⟩, by simp⟩
  intro key
  simp [selectionsOf]

/-- A committed call keeps the balance if it hands back stock that covers the lines
    after it. -/
theorem of_written {α : Type} {call : Call α} {live : List OrderLine} {now : Item}
    {stock : Stock} (hnow : book.store.get? item.id = some now)
    (hrules : item.stock.SameRules stock) (hcommits : call.commits = true)
    (htracked : now.stock.isTracked = true)
    (hcovers : Covers item.stock (selectionsOf live) stock.amounts)
    (hitems : ∀ line ∈ live, line.itemId = item.id) :
    Balanced item ⟨call.written book.store now stock, live⟩ := by
  have hid : now.id = item.id := ItemStore.id_of_get? hnow
  refine ⟨⟨{ now with stock, version := now.version + 1 }, ?_, hrules, hcovers⟩, hitems⟩
  rw [Call.written, hcommits, htracked, ← hid]
  exact ItemStore.get?_replace_self (by rw [hid, hnow])

theorem of_run {α : Type} {call : Call α} {a : α} {store : ItemStore} (h : Balanced item book)
    (hid : call.itemId = item.id) (hrun : call.run book.store = .ok (a, store)) :
    ∃ now stock, book.store.get? item.id = some now ∧ item.stock.SameRules now.stock ∧
      Covers item.stock (selectionsOf book.live) now.stock.amounts ∧
      call.evaluate now = .ok (a, stock) ∧ store = call.written book.store now stock := by
  obtain ⟨now, stock, hnow, hevaluate, hstore⟩ := Call.run_eq_ok_iff.1 hrun
  obtain ⟨current, hcurrent, hrules, hcovers⟩ := h.stored
  rw [hid, hcurrent, Option.some.injEq] at hnow
  subst hnow
  exact ⟨current, stock, hcurrent, hrules, hcovers, hevaluate, hstore⟩

theorem create (h : Balanced item book) (htracked : item.stock.isTracked = true)
    (hstart : item.stock.InCents) {s : Selection} {fresh : Uuid} {now : Timestamp}
    {line : OrderLine} {store : ItemStore} (hfor : s.itemId = item.id)
    (hrun : (desk.create s fresh now).run book.store = .ok (line, store))
    (hcents : MovesCents item.stock (selectionsOf (book.live ++ [line])))
    (hsmall : SmallTotals item.stock (selectionsOf (book.live ++ [line]))) :
    Balanced item ⟨store, book.live ++ [line]⟩ := by
  obtain ⟨snapshot, stock, hnow, hrules, hcovers, hevaluate, rfl⟩ := h.of_run hfor hrun
  have hid : snapshot.id = item.id := ItemStore.id_of_get? hnow
  obtain ⟨quote, o, -, ho, hline, rfl⟩ := Desk.create_eq_ok_iff.1 hevaluate
  have hselection : line.selection = s.withId (s.id.getD fresh) := by
    rw [hline, OrderLine.selection_ofSelection _ _ _ (hid.trans hfor.symm)]
  have hperm := selectionsOf_concat_perm book.live line
  rw [← hselection] at ho
  have hnext := Ledger.covers_of_take hrules htracked hcovers ho hstart (hcents.perm hperm)
    (hsmall.perm hperm)
  refine of_written hnow (hrules.trans (Ledger.sameRules_of_evaluate ho)) rfl
    (hrules.isTracked.trans htracked) (hnext.perm hperm.symm) ?_
  intro other hother
  rcases List.mem_append.mp hother with hother | hother
  · exact h.ofItem other hother
  · rw [List.mem_singleton.mp hother, hline]
    exact hid

/-- An edit takes the edited line away first, and what is left covers the others. -/
theorem update (h : Balanced item book) (htracked : item.stock.isTracked = true)
    (hstart : item.stock.InCents) {position : Nat} {choices : List Choice} {quantity : UInt32}
    {now : Timestamp} {line updated : OrderLine} {store : ItemStore}
    (hline : book.live[position]? = some line)
    (hrun : (desk.update line choices quantity now).run book.store = .ok (updated, store))
    (haside : SmallTotals item.stock (selectionsOf (book.live.eraseIdx position)))
    (hcents : MovesCents item.stock (selectionsOf (book.live.set position updated)))
    (hsmall : SmallTotals item.stock (selectionsOf (book.live.set position updated))) :
    Balanced item ⟨store, book.live.set position updated⟩ := by
  have hof : line.itemId = item.id := h.ofItem line (List.mem_of_getElem? hline)
  obtain ⟨snapshot, stock, hnow, hrules, hcovers, hevaluate, rfl⟩ := h.of_run hof hrun
  obtain ⟨quote, returned, o, -, hreturned, hupdated, ho, rfl⟩ :=
    Desk.update_eq_ok_iff.1 hevaluate
  have hperm := selectionsOf_set_perm hline updated
  have hothers : MovesCents item.stock (selectionsOf (book.live.eraseIdx position)) :=
    fun s hs => hcents.perm hperm s (List.mem_cons_of_mem _ hs)
  have hmiddle := Ledger.covers_of_putBack hrules htracked
    (hcovers.perm (selectionsOf_perm_eraseIdx hline)) hreturned hstart hothers haside
  have hreturnedRules := hrules.trans (Ledger.sameRules_of_evaluate hreturned)
  have hnext := Ledger.covers_of_take hreturnedRules htracked hmiddle ho hstart
    (hcents.perm hperm) (hsmall.perm hperm)
  refine of_written hnow (hreturnedRules.trans (Ledger.sameRules_of_evaluate ho)) rfl
    (hrules.isTracked.trans htracked) (hnext.perm hperm.symm) ?_
  intro other hother
  rcases List.mem_or_eq_of_mem_set hother with hother | rfl
  · exact h.ofItem other hother
  · rw [hupdated]
    exact hof

theorem delete (h : Balanced item book) (htracked : item.stock.isTracked = true)
    (hstart : item.stock.InCents) {position : Nat} {line : OrderLine} {o : LedgerOutcome}
    {store : ItemStore} (hline : book.live[position]? = some line)
    (hrun : (desk.delete line).run book.store = .ok (o, store))
    (hcents : MovesCents item.stock (selectionsOf (book.live.eraseIdx position)))
    (hsmall : SmallTotals item.stock (selectionsOf (book.live.eraseIdx position))) :
    Balanced item ⟨store, book.live.eraseIdx position⟩ := by
  have hof : line.itemId = item.id := h.ofItem line (List.mem_of_getElem? hline)
  obtain ⟨snapshot, stock, hnow, hrules, hcovers, hevaluate, rfl⟩ := h.of_run hof hrun
  obtain ⟨ho, rfl⟩ := Desk.delete_eq_ok_iff.1 hevaluate
  have hnext := Ledger.covers_of_putBack hrules htracked
    (hcovers.perm (selectionsOf_perm_eraseIdx hline)) ho hstart hcents hsmall
  refine of_written hnow (hrules.trans (Ledger.sameRules_of_evaluate ho)) rfl
    (hrules.isTracked.trans htracked) hnext ?_
  intro other hother
  exact h.ofItem other (List.mem_of_mem_eraseIdx hother)

/-- **One call keeps the balance**, whether it succeeds or fails. -/
theorem step (h : Balanced item book) (htracked : item.stock.isTracked = true)
    (hstart : item.stock.InCents) {c : LineCall} (hfor : c.IsFor item.id)
    (haside : ∀ live ∈ book.putAside desk c, SmallTotals item.stock (selectionsOf live))
    (hcents : MovesCents item.stock (selectionsOf (book.step desk c).live))
    (hsmall : SmallTotals item.stock (selectionsOf (book.step desk c).live)) :
    Balanced item (book.step desk c) := by
  cases c with
  | create s fresh now =>
    simp only [OrderBook.step, OrderBook.settle_eq] at hcents hsmall ⊢
    rcases hrun : (desk.create s fresh now).run book.store with fault | ⟨line, store⟩
    · exact h
    · rw [hrun] at hcents hsmall
      exact h.create htracked hstart hfor hrun hcents hsmall
  | update position choices quantity now =>
    simp only [OrderBook.step, OrderBook.putAside, OrderBook.settle_eq] at haside hcents hsmall ⊢
    rcases hline : book.live[position]? with _ | line
    · exact h
    · simp only [hline] at haside hcents hsmall
      rcases hrun : (desk.update line choices quantity now).run book.store with
        fault | ⟨updated, store⟩
      · simpa only [hrun] using h
      · simp only [hrun] at haside hcents hsmall ⊢
        exact h.update htracked hstart hline hrun (haside _ (List.mem_singleton.mpr rfl)) hcents
          hsmall
  | delete position =>
    simp only [OrderBook.step, OrderBook.settle_eq] at hcents hsmall ⊢
    rcases hline : book.live[position]? with _ | line
    · exact h
    · simp only [hline] at hcents hsmall
      rcases hrun : (desk.delete line).run book.store with fault | ⟨o, store⟩
      · simpa only [hrun] using h
      · simp only [hrun] at hcents hsmall ⊢
        exact h.delete htracked hstart hline hrun hcents hsmall

theorem run (htracked : item.stock.isTracked = true) (hstart : item.stock.InCents)
    {calls : List LineCall} (hfor : ∀ c ∈ calls, c.IsFor item.id) (h : Balanced item book)
    (hcents : ∀ live ∈ book.course desk calls, MovesCents item.stock (selectionsOf live))
    (hsmall : ∀ live ∈ book.course desk calls, SmallTotals item.stock (selectionsOf live)) :
    Balanced item (book.run desk calls) := by
  induction calls generalizing book with
  | nil => exact h
  | cons c calls ih =>
    have hrest : ∀ live ∈ (book.step desk c).course desk calls,
        live ∈ book.course desk (c :: calls) := by
      intro live hlive
      exact List.mem_cons_of_mem _ (List.mem_append_right _ hlive)
    have haside : ∀ live ∈ book.putAside desk c, live ∈ book.course desk (c :: calls) := by
      intro live hlive
      exact List.mem_cons_of_mem _ (List.mem_append_left _ hlive)
    have hnext : (book.step desk c).live ∈ (book.step desk c).course desk calls := by
      cases calls <;> exact List.mem_cons_self
    have hstep : Balanced item (book.step desk c) :=
      h.step htracked hstart (hfor c List.mem_cons_self)
        (fun live hlive => hsmall live (haside live hlive))
        (hcents _ (hrest _ hnext)) (hsmall _ (hrest _ hnext))
    exact ih (fun d hd => hfor d (List.mem_cons_of_mem c hd)) hstep
      (fun live hlive => hcents live (hrest live hlive))
      (fun live hlive => hsmall live (hrest live hlive))

end Balanced

/-- **Stock is conserved.**  After any run of calls on a tracked item every amount is what
    it was at the start, less what the live lines consume under its key. -/
theorem amounts_of_run {desk : Desk} {store : ItemStore} {item : Item} {calls : List LineCall}
    (hitem : store.get? item.id = some item) (htracked : item.stock.isTracked = true)
    (hstart : item.stock.InCents) (hfor : ∀ c ∈ calls, c.IsFor item.id)
    (hcents : ∀ live ∈ OrderBook.course desk ⟨store, []⟩ calls,
      MovesCents item.stock (selectionsOf live))
    (hsmall : ∀ live ∈ OrderBook.course desk ⟨store, []⟩ calls,
      SmallTotals item.stock (selectionsOf live)) :
    ∃ now, (OrderBook.run desk ⟨store, []⟩ calls).store.get? item.id = some now ∧
      ∀ key, amountValue? now.stock.amounts key = (amountValue? item.stock.amounts key).map
        (· - drawn item.stock key (selectionsOf (OrderBook.run desk ⟨store, []⟩ calls).live)) := by
  have hbalanced := (Balanced.initial hitem).run htracked hstart hfor hcents hsmall
  obtain ⟨now, hnow, -, hcovers⟩ := hbalanced.stored
  exact ⟨now, hnow, hcovers⟩

/-- Two lines are taken, one is refused, one is edited to another flavor and one removed. -/
def Sample.busyDay : List LineCall :=
  [.create { Sample.portion "Mocha" "1.25" with quantity := 2 } .nil .epoch,
    .create (Sample.portion "Mint" "1") .nil .epoch,
    .create (Sample.portion "Vanilla" "2.5") (.ofNat 7) .epoch,
    .update 0 (Sample.portion "Vanilla" "0.75").choices 3 .epoch,
    .delete 1]

/-- At the end of the day three small portions of vanilla are gone, and no mocha. -/
theorem amounts_of_busyDay :
    ∃ now, (OrderBook.run {} ⟨Sample.shop, []⟩ Sample.busyDay).store.get? Sample.iceCream.id =
        some now ∧
      amountValue? now.stock.amounts "Mocha" = some 6 ∧
      amountValue? now.stock.amounts "Vanilla" = some (12.5 - 3 * 0.75) := by
  have hfor : ∀ c ∈ Sample.busyDay, c.IsFor Sample.iceCream.id := by
    intro c hc
    simp only [Sample.busyDay, List.mem_cons, List.not_mem_nil, or_false] at hc
    rcases hc with rfl | rfl | rfl | rfl | rfl <;> trivial
  obtain ⟨now, hnow, hamounts⟩ := @amounts_of_run {} Sample.shop Sample.iceCream Sample.busyDay
    (by decide) (by decide) (by decide +kernel) hfor (by decide +kernel) (by decide +kernel)
  refine ⟨now, hnow, ?_, ?_⟩
  · rw [hamounts]
    decide +kernel
  · rw [hamounts]
    decide +kernel

end PointOfSale

/-
  PointOfSale/Proofs/Order/Editing.lean
  =====================================
  **An edit is a removal and a new order in one call.**  An edit runs the ledger
  twice on stock that nobody else has seen; `Desk.recreate` writes in between, and
  loads and prices anew.  Both succeed on the same edits, and with the same line and
  amounts; only the version tells them apart (`update_agrees_recreate`).
-/
import PointOfSale.Proofs.Order.Execution
import PointOfSale.Proofs.Order.Request

namespace PointOfSale

/-- What an order line stands for after an edit. -/
def OrderLine.edited (line : OrderLine) (choices : List Choice) (quantity : UInt32) : Selection :=
  { line.selection with choices, quantity }

/-- Remove an order line, and order what it stands for after an edit, in two calls. -/
def Desk.recreate (desk : Desk) (line : OrderLine) (choices : List Choice) (quantity : UInt32)
    (fresh : Uuid) (now : Timestamp) (store : ItemStore) :
    Except Fault (OrderLine × ItemStore) := do
  let (_, between) ← (desk.delete line).run store
  (desk.create (line.edited choices quantity) fresh now).run between

/-- Two lines for the same pieces at the same price. -/
structure OrderLine.SameOrder (a b : OrderLine) : Prop where
  id : b.id = a.id
  itemId : b.itemId = a.itemId
  choices : b.choices = a.choices
  quantity : b.quantity = a.quantity
  price : b.price = a.price
  tax : b.tax = a.tax

/-! ### The record between the two calls -/

namespace Item

variable {item : Item} {stock : Stock}

theorem id_written (item : Item) (stock : Stock) : (item.written stock).id = item.id := by
  unfold written
  split <;> rfl

theorem stock_written_of_evaluate {ledger : Ledger} {selections : List Selection}
    {op : Operation} {o : LedgerOutcome} (h : ledger.evaluate item.stock selections op = .ok o) :
    (item.written o.stock).stock = o.stock := by
  cases htracked : item.stock.isTracked with
  | true => exact stock_written_of_tracked o.stock htracked
  | false =>
    rw [Ledger.evaluate_of_untracked ledger _ _ htracked] at h
    cases h
    simp [written, htracked]

theorem isTracked_written (h : item.stock.SameRules stock) :
    (item.written stock).stock.isTracked = item.stock.isTracked := by
  unfold written
  split
  · exact h.isTracked
  · rfl

/-- A second write leaves what it would have left as the first, but for the version. -/
theorem written_written {other : Stock} (h : item.stock.SameRules stock) :
    (item.written stock).written other =
      { item.written other with
        version :=
          if item.stock.isTracked then (item.written other).version + 1
          else (item.written other).version } := by
  rw [written, isTracked_written h]
  cases htracked : item.stock.isTracked <;> simp [written, htracked]

theorem version_written_lt (stock : Stock) (hversion : item.version.toNat < 2 ^ 64 - 2) :
    (item.written stock).version.toNat < 2 ^ 64 - 1 := by
  unfold written
  split
  · rw [ItemStore.toNat_next_version (by omega)]
    omega
  · omega

end Item

/-- Two writes of one item in a row leave what the second leaves on its own, but for the
    version. -/
theorem Call.written_twice {α β γ : Type} {once : Call α} {first : Call β} {second : Call γ}
    {store : ItemStore} {id : Uuid} {item : Item} {a b : Stock} (honce : once.commits = true)
    (hfirst : first.commits = true) (hsecond : second.commits = true)
    (hitem : store.get? id = some item) (ha : item.stock.SameRules a)
    (hb : item.stock.SameRules b) (hversion : item.version.toNat < 2 ^ 64 - 2) :
    (∀ other, other ≠ id →
      (second.written (first.written store item a) (item.written a) b).get? other =
        (once.written store item b).get? other) ∧
    ∃ saved version, (once.written store item b).get? id = some saved ∧
      (second.written (first.written store item a) (item.written a) b).get? id =
        some { saved with version } ∧
      version.toNat =
        if saved.stock.isTracked then saved.version.toNat + 1 else saved.version.toNat := by
  have hid : item.id = id := ItemStore.id_of_get? hitem
  constructor
  · intro other hother
    rw [get?_written_of_ne _ _ _ (by rwa [Item.id_written, hid]),
      get?_written_of_ne _ _ _ (by rwa [hid]), get?_written_of_ne _ _ _ (by rwa [hid])]
  · refine ⟨item.written b, ((item.written a).written b).version, ?_, ?_, ?_⟩
    · exact get?_written_self b honce hitem
    · rw [get?_written_self b hsecond (get?_written_self a hfirst hitem), Item.written_written ha]
    · rw [Item.written_written ha, Item.isTracked_written hb]
      split
      · exact ItemStore.toNat_next_version (Item.version_written_lt b hversion)
      · rfl

theorem Desk.price_written (desk : Desk) (item : Item) (stock : Stock) (choices : List Choice) :
    desk.price (item.written stock) choices = desk.price item choices := by
  unfold Item.written
  split <;> rfl

/-! ### Both ways to edit a line -/

namespace Desk

variable {desk : Desk} {store : ItemStore} {item : Item} {line : OrderLine}
  {choices : List Choice} {quantity : UInt32}

theorem run_update_eq_ok_iff {now : Timestamp} {updated : OrderLine} {after : ItemStore}
    (h : store.get? line.itemId = some item) :
    (desk.update line choices quantity now).run store = .ok (updated, after) ↔
      ∃ quote returned o, desk.price item choices = .ok quote ∧
        desk.ledger.evaluate item.stock [line.selection] Operation.putBack = .ok returned ∧
        desk.ledger.evaluate returned.stock [line.edited choices quantity] Operation.take = .ok o ∧
        updated = line.reprice choices quantity quote now ∧
        after = (desk.update line choices quantity now).written store item o.stock := by
  rw [Call.run_eq_ok_iff]
  constructor
  · rintro ⟨current, stock, hcurrent, hevaluate, rfl⟩
    obtain rfl : item = current := Option.some.inj (h.symm.trans hcurrent)
    obtain ⟨quote, returned, o, hquote, hreturned, rfl, ho, rfl⟩ := update_eq_ok_iff.1 hevaluate
    exact ⟨quote, returned, o, hquote, hreturned, ho, rfl, rfl⟩
  · rintro ⟨quote, returned, o, hquote, hreturned, ho, rfl, rfl⟩
    exact ⟨item, o.stock, h, update_eq_ok_iff.2 ⟨quote, returned, o, hquote, hreturned, rfl, ho, rfl⟩,
      rfl⟩

/-- The second call finds the item as the first one has left it, and prices it as before. -/
theorem recreate_eq_ok_iff {fresh : Uuid} {now : Timestamp} {created : OrderLine}
    {final : ItemStore} (h : store.get? line.itemId = some item) :
    desk.recreate line choices quantity fresh now store = .ok (created, final) ↔
      ∃ quote returned o, desk.price item choices = .ok quote ∧
        desk.ledger.evaluate item.stock [line.selection] Operation.putBack = .ok returned ∧
        desk.ledger.evaluate returned.stock [line.edited choices quantity] Operation.take = .ok o ∧
        created = .ofSelection line.id (item.written returned.stock)
          (line.edited choices quantity) quote now ∧
        final = (desk.create (line.edited choices quantity) fresh now).written
          ((desk.delete line).written store item returned.stock)
          (item.written returned.stock) o.stock := by
  have hbetween : ∀ stock, ((desk.delete line).written store item stock).get? line.itemId =
      some (item.written stock) := by
    intro stock
    exact Call.get?_written_self stock rfl h
  simp only [recreate, bind_eq_ok_iff, Prod.exists, Call.run_eq_ok_iff]
  constructor
  · rintro ⟨returned, _, ⟨current, stock, hcurrent, hdelete, rfl⟩, next, taken, hnext, hcreate, rfl⟩
    obtain rfl : item = current := Option.some.inj (h.symm.trans hcurrent)
    obtain ⟨hreturned, rfl⟩ := delete_eq_ok_iff.1 hdelete
    obtain rfl : item.written returned.stock = next :=
      Option.some.inj ((hbetween returned.stock).symm.trans hnext)
    obtain ⟨quote, o, hquote, ho, rfl, rfl⟩ := create_eq_ok_iff.1 hcreate
    rw [price_written] at hquote
    rw [Item.stock_written_of_evaluate hreturned] at ho
    exact ⟨quote, returned, o, hquote, hreturned, ho, rfl, rfl⟩
  · rintro ⟨quote, returned, o, hquote, hreturned, ho, rfl, rfl⟩
    rw [← price_written desk item returned.stock] at hquote
    rw [← Item.stock_written_of_evaluate hreturned] at ho
    refine ⟨returned, _, ⟨item, returned.stock, h, delete_eq_ok_iff.2 ⟨hreturned, rfl⟩, rfl⟩,
      item.written returned.stock, o.stock, hbetween returned.stock, ?_, rfl⟩
    exact create_eq_ok_iff.2 ⟨quote, o, hquote, ho, rfl, rfl⟩

theorem update_isOk_iff_recreate (desk : Desk) (store : ItemStore) (line : OrderLine)
    (choices : List Choice) (quantity : UInt32) (fresh : Uuid) (now later : Timestamp) :
    (∃ r, (desk.update line choices quantity now).run store = .ok r) ↔
      ∃ r, desk.recreate line choices quantity fresh later store = .ok r := by
  cases hitem : store.get? line.itemId with
  | none =>
    have hupdate := Call.run_of_not_found (desk.update line choices quantity now) hitem
    have hdelete := Call.run_of_not_found (desk.delete line) hitem
    simp [recreate, hupdate, hdelete]
  | some item =>
    constructor
    · rintro ⟨⟨updated, after⟩, h⟩
      obtain ⟨quote, returned, o, hquote, hreturned, ho, -, -⟩ := (run_update_eq_ok_iff hitem).1 h
      exact ⟨_, (recreate_eq_ok_iff hitem).2 ⟨quote, returned, o, hquote, hreturned, ho, rfl, rfl⟩⟩
    · rintro ⟨⟨created, final⟩, h⟩
      obtain ⟨quote, returned, o, hquote, hreturned, ho, -, -⟩ := (recreate_eq_ok_iff hitem).1 h
      exact ⟨_, (run_update_eq_ok_iff hitem).2 ⟨quote, returned, o, hquote, hreturned, ho, rfl, rfl⟩⟩

end Desk

/-- **An edit is a removal and a new order.**  It succeeds exactly when both of these do, one
    after the other.  Then it returns the same order and leaves the same store, texts of the
    amounts included, with one version less on an item whose stock is tracked. -/
theorem update_agrees_recreate (desk : Desk) (store : ItemStore) (line : OrderLine)
    (choices : List Choice) (quantity : UInt32) (fresh : Uuid) (now later : Timestamp)
    (hversions : ∀ item ∈ store.items, item.version.toNat < 2 ^ 64 - 2) :
    match (desk.update line choices quantity now).run store,
      desk.recreate line choices quantity fresh later store with
    | .ok (updated, after), .ok (created, final) =>
      updated.SameOrder created ∧
        (∀ id, id ≠ line.itemId → final.get? id = after.get? id) ∧
        ∃ saved version, after.get? line.itemId = some saved ∧
          final.get? line.itemId = some { saved with version } ∧
          version.toNat =
            if saved.stock.isTracked then saved.version.toNat + 1 else saved.version.toNat
    | .error _, .error _ => True
    | _, _ => False := by
  have hsuccess := desk.update_isOk_iff_recreate store line choices quantity fresh now later
  rcases hupdate : (desk.update line choices quantity now).run store with fault | ⟨updated, after⟩
  · rcases hrecreate : desk.recreate line choices quantity fresh later store with fault | r
    · trivial
    · rw [hupdate, hrecreate] at hsuccess
      simp at hsuccess
  · rcases hrecreate : desk.recreate line choices quantity fresh later store with
      fault | ⟨created, final⟩
    · rw [hupdate, hrecreate] at hsuccess
      simp at hsuccess
    · obtain ⟨item, -, hitem, -, -⟩ := Call.run_eq_ok_iff.1 hupdate
      have hid : item.id = line.itemId := ItemStore.id_of_get? hitem
      obtain ⟨quote, returned, o, hquote, hreturned, ho, rfl, rfl⟩ :=
        (Desk.run_update_eq_ok_iff hitem).1 hupdate
      obtain ⟨_, _, _, hquote', hreturned', ho', rfl, rfl⟩ :=
        (Desk.recreate_eq_ok_iff hitem).1 hrecreate
      cases hquote.symm.trans hquote'
      cases hreturned.symm.trans hreturned'
      cases ho.symm.trans ho'
      have hrules := Ledger.sameRules_of_evaluate hreturned
      refine ⟨⟨rfl, (Item.id_written _ _).trans hid, rfl, rfl, rfl, rfl⟩, ?_⟩
      exact Call.written_twice rfl rfl rfl hitem hrules
        (hrules.trans (Ledger.sameRules_of_evaluate ho))
        (hversions item (ItemStore.mem_of_get? hitem))

/-- A small portion of mocha, as it was ordered. -/
def Sample.mochaLine : OrderLine :=
  .ofSelection (.ofNat 7) Sample.iceCream (Sample.portion "Mocha" "1.25") ⟨.zero, .zero, .zero⟩ .epoch

/-- Three portions of vanilla instead of the one of mocha: both ways leave the same vanilla. -/
theorem update_mochaLine_agrees :
    ∃ updated after created final,
      (({} : Desk).update Sample.mochaLine (Sample.portion "Vanilla" "0.75").choices 3 .epoch).run
        Sample.shop = .ok (updated, after) ∧
      ({} : Desk).recreate Sample.mochaLine (Sample.portion "Vanilla" "0.75").choices 3 .nil .epoch
        Sample.shop = .ok (created, final) ∧
      updated.SameOrder created ∧
      ∃ saved version, saved.stock.amounts.get? "Vanilla" = some ⟨"10.25"⟩ ∧
        saved.version.toNat = 1 ∧ version.toNat = 2 ∧
        after.get? Sample.iceCream.id = some saved ∧
        final.get? Sample.iceCream.id = some { saved with version } := by
  have h := update_agrees_recreate {} Sample.shop Sample.mochaLine
    (Sample.portion "Vanilla" "0.75").choices 3 .nil .epoch .epoch (by decide)
  have hstored : ((({} : Desk).update Sample.mochaLine (Sample.portion "Vanilla" "0.75").choices 3
      .epoch).run Sample.shop).toOption.bind (fun r => (r.2.get? Sample.iceCream.id).map fun saved =>
        (saved.stock.isTracked, saved.version, saved.stock.amounts.get? "Vanilla")) =
      some (true, 1, some ⟨"10.25"⟩) := by
    decide +kernel
  rcases hupdate : (({} : Desk).update Sample.mochaLine (Sample.portion "Vanilla" "0.75").choices 3
    .epoch).run Sample.shop with fault | ⟨updated, after⟩
  · rw [hupdate] at hstored
    cases hstored
  · rcases hrecreate : ({} : Desk).recreate Sample.mochaLine
      (Sample.portion "Vanilla" "0.75").choices 3 .nil .epoch Sample.shop with
      fault | ⟨created, final⟩
    · rw [hupdate, hrecreate] at h
      exact h.elim
    · rw [hupdate, hrecreate] at h
      obtain ⟨hsame, -, saved, version, hafter, hfinal, hversion⟩ := h
      have hid : Sample.mochaLine.itemId = Sample.iceCream.id := rfl
      rw [hid] at hafter hfinal
      simp only [hupdate, Except.toOption, Option.bind_some, hafter, Option.map_some,
        Option.some.injEq, Prod.mk.injEq] at hstored
      obtain ⟨htracked, hone, hvanilla⟩ := hstored
      rw [htracked, hone] at hversion
      exact ⟨updated, after, created, final, rfl, rfl, hsame, saved, version, hvanilla,
        congrArg UInt64.toNat hone, hversion, hafter, hfinal⟩

end PointOfSale

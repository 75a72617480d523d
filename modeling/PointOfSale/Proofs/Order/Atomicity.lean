/-
  PointOfSale/Proofs/Order/Atomicity.lean
  =======================================
  **A request happens as a whole or not at all.**  A request that fails, at
  whatever stage, has written nothing.  One that succeeds has touched its own
  item at most, and of that the amounts and the version only; the version goes
  up by one exactly when tracked stock is written.
-/
import PointOfSale.Proofs.Order.Execution
import PointOfSale.Proofs.Order.Request

namespace PointOfSale

open StoreProgram

/-- **Atomicity and frame of a request.**  A failed request leaves the whole store as
    it was.  After a successful one every other item is unchanged, and its own item
    has at most other amounts and, where tracked stock was written, the next version;
    any other request leaves the whole store as it was. -/
theorem execute_request_frame (desk : Desk) (r : Request) (store : ItemStore)
    (hversions : store.VersionsBelow) :
    match execute (r.call desk).program store with
    | (.error _, after) => after = store
    | (.ok _, after) =>
      (∀ id, id ≠ r.itemId → after.get? id = store.get? id) ∧
      ∃ item, store.get? r.itemId = some item ∧
        if r.commits ∧ item.stock.isTracked then
          ∃ amounts version, version.toNat = item.version.toNat + 1 ∧
            after.get? r.itemId =
              some { item with stock := item.stock.withAmounts amounts, version }
        else after = store := by
  rw [Call.execute_program]
  split
  · rename_i fault after h
    exact eq_of_settled_error h
  · rename_i answer after h
    obtain ⟨item, stock, hitem, hevaluate, rfl⟩ := Call.run_eq_ok_iff.1 (settled_eq_ok_iff.1 h)
    rw [Request.itemId_call] at hitem
    have hid := ItemStore.id_of_get? hitem
    obtain ⟨amounts, rfl⟩ := Request.sameRules_of_evaluate hevaluate
    unfold Call.written
    rw [Request.commits_call]
    split
    · rename_i hwrites
      rw [Bool.and_eq_true] at hwrites
      refine ⟨fun id hne => ItemStore.get?_replace_of_ne store (by rwa [hid]), item, hitem, ?_⟩
      rw [if_pos hwrites]
      have hbelow := hversions item (ItemStore.mem_of_get? hitem)
      refine ⟨amounts, item.version + 1, ItemStore.toNat_next_version hbelow, ?_⟩
      rw [← hid]
      exact ItemStore.get?_replace_self (by rw [hid, hitem])
    · rename_i hwrites
      rw [Bool.and_eq_true] at hwrites
      refine ⟨fun _ _ => rfl, item, hitem, ?_⟩
      rw [if_neg hwrites]

def Sample.twoPortions : Request :=
  .create { Sample.portion "Mocha" "1.25" with quantity := 2 } .nil .epoch

/-- Two portions of ice cream leave the cookies as they are, and of the ice cream they
    change amounts and version alone. -/
theorem execute_twoPortions_frame :
    ∃ answer after, execute (Sample.twoPortions.call {}).program Sample.shop = (.ok answer, after) ∧
      after.get? Sample.cookie.id = some Sample.cookie ∧
      ∃ amounts version, version.toNat = 1 ∧
        after.get? Sample.iceCream.id =
          some { Sample.iceCream with
            stock := Sample.iceCream.stock.withAmounts amounts, version } := by
  have h := execute_request_frame {} Sample.twoPortions Sample.shop (by decide)
  have hok : (execute (Sample.twoPortions.call {}).program Sample.shop).1.toOption.isSome := by
    decide
  rcases hresult : execute (Sample.twoPortions.call {}).program Sample.shop with ⟨r, after⟩
  rw [hresult] at h hok
  cases r with
  | error fault => cases hok
  | ok answer =>
    obtain ⟨hothers, item, hitem, hchanged⟩ := h
    have hice : Sample.shop.get? Sample.twoPortions.itemId = some Sample.iceCream := by decide
    obtain rfl : Sample.iceCream = item := Option.some.inj (hice.symm.trans hitem)
    rw [if_pos (by decide)] at hchanged
    exact ⟨answer, after, rfl, hothers Sample.cookie.id (by decide), hchanged⟩

end PointOfSale

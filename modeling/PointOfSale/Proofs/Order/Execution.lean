/-
  PointOfSale/Proofs/Order/Execution.lean
  =======================================
  **Calls as programs on one store.**  `Call.run` hands the store on only when the
  call succeeds.  Here the store is a state that every single write changes for
  good, so a write in front of a fault would be seen: stock and version are
  written one after the other, and nothing takes a write back.

  Main statements: `execute_finishing` and `execute_program`, the two readings of
  a call agree, and a failed call has written nothing.
-/
import PointOfSale.Order.Desk
import PointOfSale.Proofs.Checked
import PointOfSale.Proofs.ItemStore

namespace PointOfSale

variable {α β : Type}

/-- A program on the store.  It ends with a result or a fault, and with a store in
    either case. -/
abbrev StoreProgram (α : Type) := ExceptT Fault (StateM ItemStore) α

namespace StoreProgram

def execute (p : StoreProgram α) (store : ItemStore) : Except Fault α × ItemStore :=
  (ExceptT.run p).run store

def loadItem (id : Uuid) : StoreProgram Item := do
  match (← get).get? id with
  | some item => return item
  | none => throw (.itemNotFound id)

/-- Write stock under the version that the writer has seen, and then the next
    version. -/
def writeStock (id : Uuid) (expected : UInt64) (stock : Stock) : StoreProgram UInt64 := do
  let item ← loadItem id
  if item.version ≠ expected then throw (.inventoryConflict id expected item.version)
  modify (·.replace { item with stock })
  modify (·.replace { item with stock, version := item.version + 1 })
  return item.version + 1

end StoreProgram

/-- What is left of a result that carries its store: with a fault, the store before. -/
def settled (store : ItemStore) : Except Fault (α × ItemStore) → Except Fault α × ItemStore
  | .ok (a, after) => (.ok a, after)
  | .error fault => (.error fault, store)

theorem settled_eq_ok_iff {store after : ItemStore} {r : Except Fault (α × ItemStore)} {a : α} :
    settled store r = (.ok a, after) ↔ r = .ok (a, after) := by
  cases r <;> simp [settled, Prod.ext_iff]

theorem eq_of_settled_error {store after : ItemStore} {r : Except Fault (α × ItemStore)}
    {fault : Fault} (h : settled store r = (.error fault, after)) : after = store := by
  cases r <;> simp_all [settled]

/-- The record of an item after stock for it was written back. -/
def Item.written (item : Item) (stock : Stock) : Item :=
  if item.stock.isTracked then { item with stock, version := item.version + 1 } else item

theorem Item.stock_written_of_tracked {item : Item} (stock : Stock)
    (h : item.stock.isTracked = true) : (item.written stock).stock = stock := by
  simp [written, h]

open StoreProgram

namespace Call

def finishing (call : Call α) (snapshot : Item) : StoreProgram α := do
  let (answer, stock) ← ofExcept (call.evaluate snapshot)
  if call.commits && snapshot.stock.isTracked then
    let _ ← writeStock snapshot.id snapshot.version stock
  return answer

def program (call : Call α) : StoreProgram α := do
  call.finishing (← loadItem call.itemId)

end Call

/-! ### Executing step by step -/

namespace StoreProgram

@[simp] theorem execute_pure (a : α) (store : ItemStore) :
    execute (pure a) store = (.ok a, store) := rfl

@[simp] theorem execute_throw (fault : Fault) (store : ItemStore) :
    execute (throw fault : StoreProgram α) store = (.error fault, store) := rfl

@[simp] theorem execute_get (store : ItemStore) : execute get store = (.ok store, store) := rfl

@[simp] theorem execute_modify (f : ItemStore → ItemStore) (store : ItemStore) :
    execute (modify f) store = (.ok (), f store) := rfl

@[simp] theorem execute_ofExcept (x : Except Fault α) (store : ItemStore) :
    execute (ofExcept x) store = (x, store) := by
  cases x <;> rfl

/-- A fault ends a program with the store that there is by then. -/
theorem execute_bind (p : StoreProgram α) (f : α → StoreProgram β) (store : ItemStore) :
    execute (p >>= f) store =
      match execute p store with
      | (.ok a, after) => execute (f a) after
      | (.error fault, after) => (.error fault, after) := by
  simp only [execute, ExceptT.run_bind, StateT.run_bind]
  rcases h : (ExceptT.run p).run store with ⟨r, after⟩
  cases r <;> rfl

theorem execute_loadItem (id : Uuid) (store : ItemStore) :
    execute (loadItem id) store = (store.load id, store) := by
  simp only [loadItem, ItemStore.load, execute_bind, execute_get]
  cases store.get? id <;> rfl

/-- Both writes together are the one of `ItemStore.saveStock`. -/
theorem execute_writeStock_of_version {store : ItemStore} {id : Uuid} {item : Item}
    (stock : Stock) (h : store.get? id = some item) :
    execute (writeStock id item.version stock) store =
      (.ok (item.version + 1),
        store.replace { item with stock, version := item.version + 1 }) := by
  simp only [writeStock, execute_bind, execute_loadItem, ItemStore.load_of_get? h, ne_eq,
    not_true_eq_false, if_false, execute_pure, execute_modify]
  rw [ItemStore.replace_replace]
  rfl

theorem execute_writeStock_of_ne {store : ItemStore} {id : Uuid} {item : Item}
    {expected : UInt64} (stock : Stock) (h : store.get? id = some item)
    (hversion : item.version ≠ expected) :
    execute (writeStock id expected stock) store =
      (.error (.inventoryConflict id expected item.version), store) := by
  simp only [writeStock, execute_bind, execute_loadItem, ItemStore.load_of_get? h, ne_eq,
    hversion, not_false_eq_true, if_true, execute_throw]

theorem execute_writeStock (id : Uuid) (expected : UInt64) (stock : Stock)
    (store : ItemStore) :
    execute (writeStock id expected stock) store =
      settled store (store.saveStock id expected stock) := by
  cases h : store.get? id with
  | none =>
    have hload : store.load id = .error (.itemNotFound id) := by simp [ItemStore.load, h]
    simp [writeStock, execute_bind, execute_loadItem, ItemStore.saveStock, hload, settled]
  | some item =>
    by_cases hversion : item.version = expected
    · subst hversion
      rw [execute_writeStock_of_version stock h, ItemStore.saveStock_of_version stock h]
      rfl
    · rw [execute_writeStock_of_ne stock h hversion, ItemStore.saveStock_of_ne stock h hversion]
      rfl

end StoreProgram

/-! ### The two readings of a call agree -/

namespace Call

theorem execute_finishing (call : Call α) (snapshot : Item) (store : ItemStore) :
    execute (call.finishing snapshot) store = settled store (call.finish snapshot store) := by
  unfold finishing finish
  rw [execute_bind, execute_ofExcept]
  cases call.evaluate snapshot with
  | error fault => rfl
  | ok r =>
    obtain ⟨answer, stock⟩ := r
    cases hcommits : call.commits with
    | false => simp [settled]
    | true =>
      cases htracked : snapshot.stock.isTracked with
      | false => simp [ItemStore.commit, htracked, settled]
      | true =>
        simp only [ok_bind, ItemStore.commit, htracked, Bool.and_self, if_true, execute_bind,
          execute_writeStock]
        cases store.saveStock snapshot.id snapshot.version stock <;> rfl

/-- A call executed write by write ends as `Call.run` says, and a failed one leaves
    the store as it was. -/
theorem execute_program (call : Call α) (store : ItemStore) :
    execute call.program store = settled store (call.run store) := by
  unfold program run
  rw [execute_bind, execute_loadItem]
  cases store.load call.itemId with
  | error fault => rfl
  | ok snapshot => exact execute_finishing call snapshot store

/-! ### Current and stale snapshots -/

theorem run_of_not_found (call : Call α) {store : ItemStore} (h : store.get? call.itemId = none) :
    call.run store = .error (.itemNotFound call.itemId) := by
  simp [run, ItemStore.load, h]

/-- The store with the stock that a call got for the current record of its item. -/
def written (call : Call α) (store : ItemStore) (item : Item) (stock : Stock) : ItemStore :=
  if call.commits && item.stock.isTracked then
    store.replace { item with stock, version := item.version + 1 }
  else store

theorem written_of_untracked (call : Call α) (store : ItemStore) {item : Item} (stock : Stock)
    (h : item.stock.isTracked = false) : call.written store item stock = store := by
  simp [written, h]

theorem get?_written_of_ne (call : Call α) (store : ItemStore) {item : Item} {id : Uuid}
    (stock : Stock) (h : id ≠ item.id) : (call.written store item stock).get? id = store.get? id := by
  unfold written
  split
  · exact ItemStore.get?_replace_of_ne store h
  · rfl

theorem get?_written_self {call : Call α} {store : ItemStore} {id : Uuid} {item : Item}
    (stock : Stock) (hcommits : call.commits = true) (h : store.get? id = some item) :
    (call.written store item stock).get? id = some (item.written stock) := by
  have hid := ItemStore.id_of_get? h
  unfold written Item.written
  rw [hcommits, Bool.true_and]
  split
  · rw [← hid]
    exact ItemStore.get?_replace_self (by rw [hid, h])
  · exact h

/-- A write that rests on the current record is never refused. -/
theorem finish_of_current (call : Call α) {store : ItemStore} {item : Item}
    (h : store.get? item.id = some item) :
    call.finish item store =
      (fun r => (r.1, call.written store item r.2)) <$> call.evaluate item := by
  unfold finish written
  cases call.evaluate item with
  | error fault => rfl
  | ok r =>
    cases hcommits : call.commits <;> cases htracked : item.stock.isTracked <;>
      simp [ItemStore.commit, htracked, ItemStore.saveStock_of_version _ h]

theorem run_of_get? (call : Call α) {store : ItemStore} {item : Item}
    (h : store.get? call.itemId = some item) :
    call.run store = (fun r => (r.1, call.written store item r.2)) <$> call.evaluate item := by
  have hcurrent : store.get? item.id = some item := by rw [ItemStore.id_of_get? h, h]
  rw [← finish_of_current call hcurrent]
  simp [run, ItemStore.load_of_get? h]

/-- A call that succeeds has found its item and written at most that. -/
theorem run_eq_ok_iff {call : Call α} {store after : ItemStore} {a : α} :
    call.run store = .ok (a, after) ↔
      ∃ item stock, store.get? call.itemId = some item ∧
        call.evaluate item = .ok (a, stock) ∧ after = call.written store item stock := by
  cases h : store.get? call.itemId with
  | none => simp [run, ItemStore.load, h]
  | some item =>
    rw [run_of_get? call h, map_eq_ok_iff]
    constructor
    · rintro ⟨⟨_, stock⟩, hevaluate, heq⟩
      cases heq
      exact ⟨item, stock, rfl, hevaluate, rfl⟩
    · rintro ⟨_, stock, hitem, hevaluate, rfl⟩
      cases hitem
      exact ⟨(a, stock), hevaluate, rfl⟩

theorem finish_of_stale (call : Call α) {store : ItemStore} {snapshot item : Item}
    (h : store.get? snapshot.id = some item) (hversion : item.version ≠ snapshot.version)
    (hcommits : call.commits = true) (htracked : snapshot.stock.isTracked = true) :
    ∃ fault, call.finish snapshot store = .error fault := by
  unfold finish
  cases call.evaluate snapshot with
  | error fault => exact ⟨fault, rfl⟩
  | ok r =>
    refine ⟨.inventoryConflict snapshot.id snapshot.version item.version, ?_⟩
    simp [hcommits, ItemStore.commit, htracked, ItemStore.saveStock_of_ne r.2 h hversion]

end Call

end PointOfSale

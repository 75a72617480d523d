/-
  PointOfSale/Proofs/ItemStore.lean
  =================================
  **Reading the store after a write.**  A write replaces one record and leaves
  every other as it is.  Stock is written only under the version that is stored.
-/
import Mathlib.Algebra.Group.Nat.Defs
import PointOfSale.ItemStore

namespace PointOfSale.ItemStore

theorem ext {store other : ItemStore} (h : store.items = other.items) : store = other := by
  cases store; cases other; cases h; rfl

theorem id_of_get? {store : ItemStore} {id : Uuid} {item : Item}
    (h : store.get? id = some item) : item.id = id := by
  simpa using List.find?_some h

theorem mem_of_get? {store : ItemStore} {id : Uuid} {item : Item}
    (h : store.get? id = some item) : item ∈ store.items :=
  List.mem_of_find?_eq_some h

theorem load_eq_ok_iff {store : ItemStore} {id : Uuid} {item : Item} :
    store.load id = .ok item ↔ store.get? id = some item := by
  unfold load
  cases h : store.get? id <;> simp

theorem load_of_get? {store : ItemStore} {id : Uuid} {item : Item}
    (h : store.get? id = some item) : store.load id = .ok item :=
  load_eq_ok_iff.2 h

/-! ### Replacing a record -/

theorem find?_replaceIn (item : Item) (items : List Item) (id : Uuid) :
    (replaceIn item items).find? (·.id = id) =
      if id = item.id then (items.find? (·.id = id)).map fun _ => item
      else items.find? (·.id = id) := by
  induction items with
  | nil => simp [replaceIn]
  | cons i is ih =>
    simp only [replaceIn, List.map_cons] at ih ⊢
    by_cases hid : id = item.id
    · subst hid
      by_cases hi : i.id = item.id
      · simp [hi]
      · simpa [hi] using ih
    · by_cases hi : i.id = item.id
      · have hne : i.id ≠ id := fun h => hid (by rw [← h, hi])
        simpa [hi, hid, Ne.symm hid, hne] using ih
      · by_cases hii : i.id = id
        · simp [hii, hid]
        · simpa [hi, hid, hii] using ih

/-- A replaced record is seen under its identifier, and every other record is as it
    was. -/
theorem get?_replace (store : ItemStore) (item : Item) (id : Uuid) :
    (store.replace item).get? id =
      if id = item.id then (store.get? id).map fun _ => item else store.get? id :=
  find?_replaceIn item store.items id

theorem get?_replace_self {store : ItemStore} {item old : Item}
    (h : store.get? item.id = some old) : (store.replace item).get? item.id = some item := by
  simp [get?_replace, h]

theorem get?_replace_of_ne (store : ItemStore) {item : Item} {id : Uuid} (h : id ≠ item.id) :
    (store.replace item).get? id = store.get? id := by
  simp [get?_replace, h]

theorem replace_replace (store : ItemStore) {item other : Item} (h : item.id = other.id) :
    (store.replace item).replace other = store.replace other := by
  apply ext
  simp only [replace, replaceIn, List.map_map]
  apply List.map_congr_left
  intro i _
  by_cases hi : i.id = other.id
  · simp [hi, h]
  · simp [hi, h]

/-! ### Writing stock -/

theorem saveStock_of_version {store : ItemStore} {id : Uuid} {item : Item} (stock : Stock)
    (h : store.get? id = some item) :
    store.saveStock id item.version stock =
      .ok (item.version + 1, store.replace { item with stock, version := item.version + 1 }) := by
  simp [saveStock, load_of_get? h, bind, Except.bind, pure, Except.pure]

theorem saveStock_of_ne {store : ItemStore} {id : Uuid} {item : Item} {expected : UInt64}
    (stock : Stock) (h : store.get? id = some item) (hversion : item.version ≠ expected) :
    store.saveStock id expected stock = .error (.inventoryConflict id expected item.version) := by
  simp [saveStock, load_of_get? h, bind, Except.bind, hversion, throw, throwThe,
    MonadExceptOf.throw]

/-! ### Versions -/

/-- No stored version is the greatest one, after which counting starts anew. -/
def VersionsBelow (store : ItemStore) : Prop :=
  ∀ item ∈ store.items, item.version.toNat < 2 ^ 64 - 1

instance (store : ItemStore) : Decidable store.VersionsBelow :=
  inferInstanceAs (Decidable (∀ item ∈ store.items, item.version.toNat < 2 ^ 64 - 1))

theorem toNat_next_version {version : UInt64} (h : version.toNat < 2 ^ 64 - 1) :
    (version + 1).toNat = version.toNat + 1 := by
  rw [UInt64.toNat_add]
  exact Nat.mod_eq_of_lt (by simp; omega)

end PointOfSale.ItemStore

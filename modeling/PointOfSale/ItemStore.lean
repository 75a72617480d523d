/-
  PointOfSale/ItemStore.lean
  ==========================
  **The store of items.**  Items are handed out as snapshots.  Stock is written
  back under the version of the snapshot, and the write is refused when the
  stored version has moved on in between.
-/
import PointOfSale.Menu
import PointOfSale.Operation

namespace PointOfSale

/-- Stored items; no two have one identifier. -/
structure ItemStore where
  items : List Item
  distinct : (items.map (·.id)).Nodup
  deriving DecidableEq

namespace ItemStore

def empty : ItemStore := ⟨[], .nil⟩

instance : Inhabited ItemStore := ⟨empty⟩

def get? (store : ItemStore) (id : Uuid) : Option Item := store.items.find? (·.id = id)

/-- The stored item with an identifier, or a fault. -/
def load (store : ItemStore) (id : Uuid) : Except Fault Item :=
  match store.get? id with
  | some item => .ok item
  | none => .error (.itemNotFound id)

/-! ### Replacing and adding items -/

/-- Put an item in the place of the one with its identifier. -/
def replaceIn (item : Item) (items : List Item) : List Item :=
  items.map fun i => if i.id = item.id then item else i

theorem ids_replaceIn (item : Item) (items : List Item) :
    (replaceIn item items).map (·.id) = items.map (·.id) := by
  induction items with
  | nil => rfl
  | cons i is ih =>
    simp only [replaceIn, List.map_cons, List.map_map] at ih ⊢
    rw [ih]
    split
    · rename_i h
      rw [h]
    · rfl

/-- The store with an item in the place of the one with its identifier. -/
def replace (store : ItemStore) (item : Item) : ItemStore :=
  ⟨replaceIn item store.items, by rw [ids_replaceIn]; exact store.distinct⟩

/-- The store with an item that is new, or in the place of the one with its
    identifier. -/
def upsert (store : ItemStore) (item : Item) : ItemStore :=
  if h : item.id ∈ store.items.map (·.id) then store.replace item
  else
    ⟨store.items ++ [item], by
      rw [List.map_append, List.nodup_append]
      refine ⟨store.distinct, by simp, fun a ha b hb hab => h ?_⟩
      have hb : b = item.id := by simpa using hb
      rw [← hb, ← hab]
      exact ha⟩

/-- The store of a row of items; of items with one identifier the last stays. -/
def ofList (items : List Item) : ItemStore := items.foldl upsert empty

/-! ### Stock -/

/-- Write stock under the version that the writer has seen; the version goes up by
    one. -/
def saveStock (store : ItemStore) (id : Uuid) (expected : UInt64) (stock : Stock) :
    Except Fault (UInt64 × ItemStore) := do
  let item ← store.load id
  if item.version = expected then
    let updated := { item with stock, version := item.version + 1 }
    return (updated.version, store.replace updated)
  else throw (.inventoryConflict id expected item.version)

/-- Write the stock of a snapshot back; stock that is not tracked is left alone. -/
def commit (store : ItemStore) (snapshot : Item) (stock : Stock) : Except Fault ItemStore :=
  if snapshot.stock.isTracked then
    (·.2) <$> store.saveStock snapshot.id snapshot.version stock
  else .ok store

/-- All items, by name and then by identifier. -/
def snapshot (store : ItemStore) : List Item := store.items.mergeSort Item.le

end ItemStore

end PointOfSale

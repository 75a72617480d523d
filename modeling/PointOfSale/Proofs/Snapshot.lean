/-
  PointOfSale/Proofs/Snapshot.lean
  ================================
  **From a row of items to the store and back.**  A row of items of which no two have
  one identifier is stored as it is, and a snapshot of the store has the same items in
  their order, which is strict.
-/
import Mathlib.Data.List.Induction
import Mathlib.Data.List.Nodup
import PointOfSale.Proofs.ItemStore

namespace PointOfSale

/-! ### The order of items -/

/-- An item comes before another: its name does, or with the same name its identifier. -/
def Item.Before (a b : Item) : Prop :=
  a.name < b.name ∨ a.name = b.name ∧ a.id.bits.toNat < b.id.bits.toNat

theorem Item.le_iff {a b : Item} : a.le b = true ↔
    a.name < b.name ∨ a.name = b.name ∧ a.id.bits.toNat ≤ b.id.bits.toNat := by
  simp [le, Uuid.le]

theorem Item.le_trans {a b c : Item} (hab : a.le b = true) (hbc : b.le c = true) :
    a.le c = true := by
  rw [le_iff] at hab hbc ⊢
  rcases hab with hab | ⟨hab, hid⟩
  · rcases hbc with hbc | ⟨hbc, -⟩
    · exact .inl (String.lt_trans hab hbc)
    · exact .inl (hbc ▸ hab)
  · rcases hbc with hbc | ⟨hbc, hid'⟩
    · exact .inl (hab ▸ hbc)
    · exact .inr ⟨hab.trans hbc, Nat.le_trans hid hid'⟩

theorem Item.le_total (a b : Item) : (a.le b || b.le a) = true := by
  rw [Bool.or_eq_true, le_iff, le_iff]
  by_cases hname : a.name = b.name
  · rcases Nat.le_total a.id.bits.toNat b.id.bits.toNat with hid | hid
    · exact .inl (.inr ⟨hname, hid⟩)
    · exact .inr (.inr ⟨hname.symm, hid⟩)
  · by_cases hlt : a.name < b.name
    · exact .inl (.inl hlt)
    · exact .inr (.inl (Std.lt_of_le_of_ne (String.not_lt.1 hlt) (Ne.symm hname)))

theorem Item.before_of_le {a b : Item} (hle : a.le b = true) (hid : a.id ≠ b.id) : a.Before b := by
  rcases le_iff.1 hle with hname | ⟨hname, hbits⟩
  · exact .inl hname
  · refine .inr ⟨hname, Nat.lt_of_le_of_ne hbits ?_⟩
    intro heq
    exact hid (congrArg Uuid.mk (BitVec.eq_of_toNat_eq heq))

namespace ItemStore

/-! ### Storing a row of items -/

theorem items_foldl_upsert {items : List Item} {store : ItemStore}
    (h : ((store.items ++ items).map (·.id)).Nodup) :
    (items.foldl upsert store).items = store.items ++ items := by
  induction items generalizing store with
  | nil => simp
  | cons item items ih =>
    have hnew : item.id ∉ store.items.map (·.id) := by
      intro hmem
      rw [List.map_append, List.nodup_append] at h
      exact h.2.2 item.id hmem item.id (by simp) rfl
    have hupsert : (store.upsert item).items = store.items ++ [item] := by
      rw [upsert, dif_neg hnew]
    rw [List.foldl_cons, ih (by rwa [hupsert, List.append_assoc]), hupsert, List.append_assoc]
    rfl

/-- Items of which no two have one identifier are stored as they are. -/
theorem items_ofList {items : List Item} (h : (items.map (·.id)).Nodup) :
    (ofList items).items = items := by
  rw [ofList, items_foldl_upsert (by simpa [empty] using h)]
  rfl

theorem eq_of_get?_ofList {items : List Item} {id : Uuid} {item i : Item}
    (hids : (items.map (·.id)).Nodup) (hitem : (ofList items).get? id = some item)
    (hi : i ∈ items) (hid : i.id = id) : i = item := by
  have hmem : item ∈ items := by
    have hstored := mem_of_get? hitem
    rwa [items_ofList hids] at hstored
  exact List.inj_on_of_nodup_map hids hi hmem (hid.trans (id_of_get? hitem).symm)

theorem get?_ofList_of_mem {items : List Item} (hids : (items.map (·.id)).Nodup) {item : Item}
    (hitem : item ∈ items) : (ofList items).get? item.id = some item := by
  cases hfound : (ofList items).get? item.id with
  | none =>
    rw [get?, items_ofList hids, List.find?_eq_none] at hfound
    exact absurd (decide_eq_true rfl) (hfound item hitem)
  | some other => rw [eq_of_get?_ofList hids hfound hitem rfl]

theorem mem_upsert {store : ItemStore} {item i : Item} (h : i ∈ (store.upsert item).items) :
    i ∈ store.items ∨ i = item := by
  unfold upsert at h
  split at h
  · obtain ⟨j, hj, rfl⟩ := List.mem_map.1 h
    split
    · exact .inr rfl
    · exact .inl hj
  · simpa using h

/-- Nothing is stored but what was in the row. -/
theorem mem_of_mem_ofList {items : List Item} {item : Item} (h : item ∈ (ofList items).items) :
    item ∈ items := by
  induction items using List.reverseRecOn with
  | nil => cases h
  | append_singleton items last ih =>
    rw [ofList, List.foldl_append] at h
    rcases mem_upsert h with h | rfl
    · exact List.mem_append_left _ (ih h)
    · simp

/-! ### Snapshots of the store -/

theorem snapshot_perm (store : ItemStore) : store.snapshot.Perm store.items :=
  List.mergeSort_perm store.items Item.le

theorem nodup_snapshot (store : ItemStore) : (store.snapshot.map (·.id)).Nodup :=
  (store.snapshot_perm.map (·.id)).nodup_iff.2 store.distinct

/-- A snapshot has every item once, in the order of the names and then of the
    identifiers. -/
theorem pairwise_snapshot (store : ItemStore) : store.snapshot.Pairwise Item.Before := by
  have htrans : ∀ a b c : Item, a.le b = true → b.le c = true → a.le c = true :=
    fun _ _ _ => Item.le_trans
  have hsorted : store.snapshot.Pairwise fun a b => a.le b = true := by
    rw [snapshot]
    exact List.pairwise_mergeSort htrans Item.le_total store.items
  have hdistinct : store.snapshot.Pairwise fun a b => a.id ≠ b.id :=
    List.pairwise_map.1 store.nodup_snapshot
  refine (hsorted.and hdistinct).imp ?_
  rintro a b ⟨hle, hid⟩
  exact Item.before_of_le hle hid

end ItemStore

end PointOfSale

/-
  PointOfSale/Proofs/ItemStore/Staleness.lean
  ===========================================
  **Writers with stale snapshots.**  Stock is saved under the version of a snapshot, which
  is meant to refuse a writer who has not seen the stock that is stored.  Saves only count
  versions up, but a record that is put in by hand has the version that it comes with.

  A store keeps stale writers out, whatever is saved from then on, exactly while the stored
  record supersedes the snapshot (`keepsOut_iff`).  Over a history this is a condition on
  the records put in since the snapshot was taken, and on nothing else
  (`throughout_keepsOut_iff`).
-/
import PointOfSale.Proofs.Order.Execution
import PointOfSale.Proofs.Order.Request

namespace PointOfSale

open StoreProgram (execute writeStock execute_writeStock_of_version execute_writeStock_of_ne
  execute_writeStock)

/-! ### Histories -/

inductive StoreCall where
  | upsert (item : Item)
  | get (id : Uuid)
  | save (id : Uuid) (expected : UInt64) (stock : Stock)

namespace StoreCall

def apply (store : ItemStore) : StoreCall → ItemStore
  | upsert item => store.upsert item
  | get _ => store
  | save id expected stock => (execute (writeStock id expected stock) store).2

def isSave : StoreCall → Bool
  | save .. => true
  | _ => false

end StoreCall

namespace ItemStore

def after (store : ItemStore) (calls : List StoreCall) : ItemStore :=
  calls.foldl StoreCall.apply store

/-- Something holds at first and after every one of the calls. -/
def Throughout (P : ItemStore → Prop) (store : ItemStore) : List StoreCall → Prop
  | [] => P store
  | call :: calls => P store ∧ Throughout P (call.apply store) calls

instance decidableThroughout (P : ItemStore → Prop) [DecidablePred P] (store : ItemStore)
    (calls : List StoreCall) : Decidable (Throughout P store calls) :=
  match calls with
  | [] => inferInstanceAs (Decidable (P store))
  | call :: calls =>
    have := decidableThroughout P (call.apply store) calls
    inferInstanceAs (Decidable (P store ∧ Throughout P (call.apply store) calls))

theorem Throughout.head {P : ItemStore → Prop} {store : ItemStore} {calls : List StoreCall}
    (h : Throughout P store calls) : P store := by
  cases calls with
  | nil => exact h
  | cons call calls => exact h.1

/-! ### What a call does to one record -/

variable {store : ItemStore} {id : Uuid} {item : Item}

theorem get?_upsert_self (store : ItemStore) (item : Item) :
    (store.upsert item).get? item.id = some item := by
  unfold upsert
  split
  · rename_i hmem
    obtain ⟨old, hold, hid⟩ := List.mem_map.1 hmem
    have hsome : (store.get? item.id).isSome := by
      rw [get?, List.find?_isSome]
      exact ⟨old, hold, by simpa using hid⟩
    obtain ⟨found, hfound⟩ := Option.isSome_iff_exists.1 hsome
    exact get?_replace_self hfound
  · rename_i hnew
    have hnone : store.items.find? (fun i => decide (i.id = item.id)) = none := by
      rw [List.find?_eq_none]
      intro i hi heq
      exact hnew (List.mem_map.2 ⟨i, hi, by simpa using heq⟩)
    simp [get?, List.find?_append, hnone]

theorem get?_upsert_of_ne (store : ItemStore) (hid : id ≠ item.id) :
    (store.upsert item).get? id = store.get? id := by
  unfold upsert
  split
  · exact get?_replace_of_ne store hid
  · simp [get?, List.find?_append, Ne.symm hid]

theorem apply_save_of_version (h : store.get? id = some item) (stock : Stock) :
    (StoreCall.save id item.version stock).apply store =
      store.replace { item with stock, version := item.version + 1 } := by
  rw [StoreCall.apply, execute_writeStock_of_version stock h]

theorem apply_save_of_ne {expected : UInt64} (h : store.get? id = some item)
    (hversion : item.version ≠ expected) (stock : Stock) :
    (StoreCall.save id expected stock).apply store = store := by
  rw [StoreCall.apply, execute_writeStock_of_ne stock h hversion]

theorem get?_apply_save_self (h : store.get? id = some item) (stock : Stock) :
    ((StoreCall.save id item.version stock).apply store).get? id =
      some { item with stock, version := item.version + 1 } := by
  obtain rfl : item.id = id := id_of_get? h
  rw [apply_save_of_version h]
  exact get?_replace_self h

theorem get?_apply_save_of_ne {other : Uuid} (hid : id ≠ other) (expected : UInt64)
    (stock : Stock) :
    ((StoreCall.save other expected stock).apply store).get? id = store.get? id := by
  cases hother : store.get? other with
  | none =>
    have hfault : store.saveStock other expected stock = .error (.itemNotFound other) := by
      simp [saveStock, load, hother, bind, Except.bind]
    rw [StoreCall.apply, execute_writeStock, hfault]
    rfl
  | some found =>
    by_cases hversion : found.version = expected
    · subst hversion
      obtain rfl : found.id = other := id_of_get? hother
      rw [apply_save_of_version hother]
      exact get?_replace_of_ne store hid
    · rw [apply_save_of_ne hother hversion]

/-- A call leaves a record as it is, saves stock under its version, or puts in another. -/
theorem exists_get?_apply (h : store.get? id = some item) (call : StoreCall) :
    ∃ next, (call.apply store).get? id = some next ∧
      (next = item ∨
        (∃ stock, call = .save id item.version stock ∧
          next = { item with stock, version := item.version + 1 }) ∨
        (call = .upsert next ∧ next.id = id)) := by
  cases call with
  | upsert other =>
    by_cases hid : id = other.id
    · subst hid
      exact ⟨other, get?_upsert_self store other, .inr (.inr ⟨rfl, rfl⟩)⟩
    · exact ⟨item, by rw [StoreCall.apply, get?_upsert_of_ne store hid, h], .inl rfl⟩
  | get _ => exact ⟨item, h, .inl rfl⟩
  | save other expected stock =>
    by_cases hid : id = other
    · subst hid
      by_cases hversion : item.version = expected
      · subst hversion
        exact ⟨_, get?_apply_save_self h stock, .inr (.inl ⟨stock, rfl, rfl⟩)⟩
      · exact ⟨item, by rw [apply_save_of_ne h hversion, h], .inl rfl⟩
    · exact ⟨item, by rw [get?_apply_save_of_ne hid, h], .inl rfl⟩

end ItemStore

/-! ### Keeping stale writers out -/

/-- The record has a later version than the snapshot, or the same one with the same stock. -/
def Item.Supersedes (item snapshot : Item) : Prop :=
  snapshot.version < item.version ∨
    item.version = snapshot.version ∧ item.stock = snapshot.stock

namespace ItemStore

variable {store : ItemStore} {snapshot item : Item} {calls : List StoreCall}

/-- A save under the version of the snapshot goes through only where the stock of the snapshot
    is stored.  Elsewhere it is a conflict, and the store stays as it is. -/
def RejectsStale (snapshot : Item) (store : ItemStore) : Prop :=
  ∃ item, store.get? snapshot.id = some item ∧
    (item.stock = snapshot.stock ∨
      ∀ stock, execute (writeStock snapshot.id snapshot.version stock) store =
        (.error (.inventoryConflict snapshot.id snapshot.version item.version), store))

/-- Stale writers are rejected, and will be while nothing but stock is written. -/
def KeepsOut (snapshot : Item) (store : ItemStore) : Prop :=
  ∀ saves : List StoreCall, (∀ call ∈ saves, call.isSave = true) →
    Throughout VersionsBelow store saves → RejectsStale snapshot (store.after saves)

theorem rejectsStale_of_supersedes (hitem : store.get? snapshot.id = some item)
    (h : item.Supersedes snapshot) : RejectsStale snapshot store := by
  refine ⟨item, hitem, ?_⟩
  rcases h with hlater | ⟨-, hstock⟩
  · right
    intro stock
    have hne : item.version ≠ snapshot.version := by
      intro heq
      rw [heq] at hlater
      exact absurd hlater (UInt64.lt_irrefl _)
    exact execute_writeStock_of_ne stock hitem hne
  · exact .inl hstock

theorem not_rejectsStale (hitem : store.get? snapshot.id = some item)
    (hversion : item.version = snapshot.version) (hstock : item.stock ≠ snapshot.stock) :
    ¬RejectsStale snapshot store := by
  rintro ⟨other, hother, hcase⟩
  obtain rfl : item = other := Option.some.inj (hitem.symm.trans hother)
  rcases hcase with hsame | hconflict
  · exact hstock hsame
  · have hfault := hconflict snapshot.stock
    rw [← hversion, execute_writeStock_of_version snapshot.stock hitem] at hfault
    cases congrArg Prod.fst hfault

/-- A call that puts nothing in leaves a record that supersedes the snapshot. -/
theorem exists_supersedes_apply (hitem : store.get? snapshot.id = some item)
    (h : item.Supersedes snapshot) (hbelow : store.VersionsBelow) {call : StoreCall}
    (hcall : ∀ other, call = .upsert other → other.id = snapshot.id → other.Supersedes snapshot) :
    ∃ next, (call.apply store).get? snapshot.id = some next ∧ next.Supersedes snapshot := by
  obtain ⟨next, hnext, hcase⟩ := exists_get?_apply hitem call
  refine ⟨next, hnext, ?_⟩
  rcases hcase with rfl | ⟨stock, -, rfl⟩ | ⟨rfl, hid⟩
  · exact h
  · -- the version goes up by one, from one that was not lower than that of the snapshot
    left
    have hnext := toNat_next_version (hbelow item (mem_of_get? hitem))
    rw [UInt64.lt_iff_toNat_lt, hnext]
    rcases h with hlater | ⟨hversion, -⟩
    · rw [UInt64.lt_iff_toNat_lt] at hlater
      omega
    · rw [hversion]
      omega
  · exact hcall next rfl hid

theorem keepsOut_of_supersedes (hitem : store.get? snapshot.id = some item)
    (h : item.Supersedes snapshot) : KeepsOut snapshot store := by
  intro saves hsaves hbelow
  induction saves generalizing store item with
  | nil => exact rejectsStale_of_supersedes hitem h
  | cons call saves ih =>
    obtain ⟨hfirst, hrest⟩ := hbelow
    have hcall : ∀ other, call = .upsert other → other.id = snapshot.id →
        other.Supersedes snapshot := by
      rintro other rfl
      exact absurd (hsaves _ List.mem_cons_self) Bool.false_ne_true
    obtain ⟨next, hnext, hsupersedes⟩ := exists_supersedes_apply hitem h hfirst hcall
    exact ih hnext hsupersedes (fun c hc => hsaves c (List.mem_cons_of_mem call hc)) hrest

/-! ### Catching up with a snapshot -/

theorem versionsBelow_replace (h : store.VersionsBelow)
    (hitem : item.version.toNat < 2 ^ 64 - 1) : (store.replace item).VersionsBelow := by
  intro i hi
  obtain ⟨old, hold, rfl⟩ := List.mem_map.1 hi
  split
  · exact hitem
  · exact h old hold

theorem exists_save {id : Uuid} (hbelow : store.VersionsBelow)
    (hitem : store.get? id = some item) (hroom : item.version.toNat + 1 < 2 ^ 64 - 1)
    (stock : Stock) :
    let call := StoreCall.save id item.version stock
    (call.apply store).VersionsBelow ∧
      ∃ next, (call.apply store).get? id = some next ∧ next.stock = stock ∧
        next.version.toNat = item.version.toNat + 1 := by
  have hnext := toNat_next_version (hbelow item (mem_of_get? hitem))
  refine ⟨?_, _, get?_apply_save_self hitem stock, rfl, hnext⟩
  rw [apply_save_of_version hitem]
  exact versionsBelow_replace hbelow (hnext ▸ hroom)

/-- Saves bring a record with a lower version up to any version, with any stock. -/
theorem exists_saves {id : Uuid} {version : UInt64} (hversion : version.toNat < 2 ^ 64 - 1)
    (stock : Stock) {steps : Nat} (hbelow : store.VersionsBelow)
    (hitem : store.get? id = some item)
    (hsteps : item.version.toNat + (steps + 1) = version.toNat) :
    ∃ saves : List StoreCall, (∀ call ∈ saves, call.isSave = true) ∧
      Throughout VersionsBelow store saves ∧
      ∃ last, (store.after saves).get? id = some last ∧ last.version = version ∧
        last.stock = stock := by
  obtain ⟨hnextBelow, next, hnext, hstock, hcount⟩ :=
    exists_save hbelow hitem (by omega) stock
  induction steps generalizing store item next with
  | zero =>
    refine ⟨[.save id item.version stock], by simp [StoreCall.isSave], ⟨hbelow, hnextBelow⟩,
      next, hnext, ?_, hstock⟩
    exact UInt64.toNat_inj.1 (by omega)
  | succ steps ih =>
    have hremaining : next.version.toNat + (steps + 1) = version.toNat := by omega
    obtain ⟨hlater, later, hget, hlaterStock, hlaterCount⟩ :=
      exists_save hnextBelow hnext (by omega) stock
    obtain ⟨saves, hsaves, hrun, hlast⟩ :=
      ih hnextBelow hnext hremaining hlater later hget hlaterStock hlaterCount
    refine ⟨.save id item.version stock :: saves, ?_, ⟨hbelow, hrun⟩, hlast⟩
    intro call hcall
    rcases List.mem_cons.1 hcall with rfl | hcall
    · rfl
    · exact hsaves call hcall

theorem exists_stock_ne (stock : Stock) : ∃ other : Stock, other ≠ stock := by
  refine ⟨{ stock with isTracked := !stock.isTracked }, ?_⟩
  intro heq
  have htracked := congrArg Stock.isTracked heq
  simp at htracked

/-- **Stale writers are kept out by a superseding record**, and by no other. -/
theorem keepsOut_iff (hbelow : store.VersionsBelow)
    (hversion : snapshot.version.toNat < 2 ^ 64 - 1)
    (hitem : store.get? snapshot.id = some item) :
    KeepsOut snapshot store ↔ item.Supersedes snapshot := by
  constructor
  · intro hkeeps
    by_contra hnot
    simp only [Item.Supersedes, not_or, not_and, UInt64.not_lt] at hnot
    obtain ⟨hle, hstock⟩ := hnot
    by_cases heq : item.version = snapshot.version
    · exact not_rejectsStale hitem heq (hstock heq) (hkeeps [] (by simp) hbelow)
    · -- the version is lower, and saves bring it back
      have hlt : item.version.toNat < snapshot.version.toNat := by
        have hne : item.version.toNat ≠ snapshot.version.toNat :=
          fun h => heq (UInt64.toNat_inj.1 h)
        rw [UInt64.le_iff_toNat_le] at hle
        omega
      obtain ⟨other, hother⟩ := exists_stock_ne snapshot.stock
      obtain ⟨steps, hsteps⟩ := Nat.exists_eq_add_of_lt hlt
      obtain ⟨saves, hsaves, hrun, last, hlast, hcaught, hlastStock⟩ :=
        exists_saves hversion other hbelow hitem hsteps.symm
      exact not_rejectsStale hlast hcaught (hlastStock ▸ hother) (hkeeps saves hsaves hrun)
  · intro h
    exact keepsOut_of_supersedes hitem h

/-! ### Histories since a snapshot -/

theorem throughout_keepsOut_iff_of_supersedes (hversion : snapshot.version.toNat < 2 ^ 64 - 1)
    (hitem : store.get? snapshot.id = some item) (h : item.Supersedes snapshot)
    (hbelow : Throughout VersionsBelow store calls) :
    Throughout (KeepsOut snapshot) store calls ↔
      ∀ other, .upsert other ∈ calls → other.id = snapshot.id → other.Supersedes snapshot := by
  induction calls generalizing store item with
  | nil =>
    have hkeeps : KeepsOut snapshot store := keepsOut_of_supersedes hitem h
    simpa [Throughout] using hkeeps
  | cons call calls ih =>
    obtain ⟨hfirst, hrest⟩ := hbelow
    constructor
    · rintro ⟨-, hkeeps⟩
      -- what this call puts in is stored behind it, so it supersedes the snapshot
      have hcall : ∀ other, call = .upsert other → other.id = snapshot.id →
          other.Supersedes snapshot := by
        rintro other rfl hid
        have hother := get?_upsert_self store other
        rw [hid] at hother
        exact (keepsOut_iff hrest.head hversion hother).1 hkeeps.head
      obtain ⟨next, hnext, hsupersedes⟩ := exists_supersedes_apply hitem h hfirst hcall
      intro other hmem hid
      rcases List.mem_cons.1 hmem with heq | hmem
      · exact hcall other heq.symm hid
      · exact (ih hnext hsupersedes hrest).1 hkeeps other hmem hid
    · intro hputs
      obtain ⟨next, hnext, hsupersedes⟩ := exists_supersedes_apply hitem h hfirst
        fun other heq hid => hputs other (heq ▸ List.mem_cons_self) hid
      refine ⟨keepsOut_of_supersedes hitem h, (ih hnext hsupersedes hrest).2 ?_⟩
      intro other hmem hid
      exact hputs other (List.mem_cons_of_mem call hmem) hid

/-- **A stale writer is kept out throughout a history** exactly when every record put in for
    the item since the snapshot was taken has a later version, or the same version with the
    same stock. -/
theorem throughout_keepsOut_iff (hget : store.get? snapshot.id = some snapshot)
    (hbelow : Throughout VersionsBelow store calls) :
    Throughout (KeepsOut snapshot) store calls ↔
      ∀ other, .upsert other ∈ calls → other.id = snapshot.id → other.Supersedes snapshot :=
  throughout_keepsOut_iff_of_supersedes (hbelow.head snapshot (mem_of_get? hget)) hget
    (.inr ⟨rfl, rfl⟩) hbelow

end ItemStore

namespace Sample

/-- The record of the ice cream from elsewhere, with only mocha left. -/
def imported (version : UInt64) (mocha : String) : Item :=
  { iceCream with
    version
    stock := iceCream.stock.withAmounts (.ofList [("Mocha", ⟨mocha⟩)]) }

/-- A sale, a later record from elsewhere, and a sale on a snapshot from before both. -/
def delivery : List StoreCall :=
  [.get iceCream.id, .save iceCream.id 0 (imported 0 "5.0").stock, .upsert (imported 7 "20"),
    .upsert { cookie with version := 3 }, .save iceCream.id 0 (imported 0 "4.0").stock]

end Sample

namespace ItemStore

open Sample

/-- A record with a later version keeps the snapshot from before it out. -/
theorem throughout_keepsOut_delivery :
    shop.get? iceCream.id = some iceCream ∧ Throughout VersionsBelow shop delivery ∧
      Throughout (KeepsOut iceCream) shop delivery := by
  have hget : shop.get? iceCream.id = some iceCream := by decide
  have hbelow : Throughout VersionsBelow shop delivery := by decide
  refine ⟨hget, hbelow, (throughout_keepsOut_iff hget hbelow).2 ?_⟩
  intro other hmem hid
  simp only [delivery, List.mem_cons, StoreCall.upsert.injEq, reduceCtorEq, List.not_mem_nil,
    or_false, false_or] at hmem
  rcases hmem with rfl | rfl
  · exact .inl (by decide)
  · exact absurd hid (by decide)

/-- A record with the version of the snapshot lets a sale through that has not seen its
    stock: the mocha that came with it is gone. -/
theorem imported_letThrough :
    shop.get? iceCream.id = some iceCream ∧
      Throughout VersionsBelow shop [.upsert (imported 0 "9")] ∧
      (imported 0 "9").stock ≠ iceCream.stock ∧
      (shop.after [.upsert (imported 0 "9")]).get? iceCream.id = some (imported 0 "9") ∧
      ∃ last, execute (writeStock iceCream.id iceCream.version (imported 0 "5.0").stock)
          (shop.after [.upsert (imported 0 "9")]) = (.ok 1, last) ∧
        last.get? iceCream.id = some (imported 1 "5.0") := by
  have hstored : (shop.after [.upsert (imported 0 "9")]).get? iceCream.id =
      some (imported 0 "9") := by decide
  have hlast : ((shop.after [.upsert (imported 0 "9")]).replace (imported 1 "5.0")).get?
      (imported 1 "5.0").id = some (imported 1 "5.0") := get?_replace_self hstored
  have hwrite := execute_writeStock_of_version (imported 0 "5.0").stock hstored
  exact ⟨by decide, by decide, by decide, hstored, _, hwrite, hlast⟩

end ItemStore

end PointOfSale

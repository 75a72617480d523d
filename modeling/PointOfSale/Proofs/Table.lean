/-
  PointOfSale/Proofs/Table.lean
  =============================
  **Reading a table after an insertion.**  Inserting changes the entry under its
  own key and no other; under a key that is there already, the keys stay.  A table
  is known by what is read from it, which is how two ways of filling one are compared.
-/
import Mathlib.Data.List.Sort
import PointOfSale.Table

namespace PointOfSale.Table

variable {α : Type}

theorem find?_insertEntry (key : String) (a : α) (es : List (String × α)) (other : String) :
    ((insertEntry key a es).find? (·.1 = other)).map (·.2) =
      if other = key then some a else (es.find? (·.1 = other)).map (·.2) := by
  induction es with
  | nil =>
    by_cases h : other = key
    · simp [insertEntry, h]
    · simp [insertEntry, h, Ne.symm h]
  | cons e es ih =>
    simp only [insertEntry]
    split
    · by_cases h : other = key
      · simp [h]
      · simp [h, Ne.symm h]
    · split
      · rename_i heq
        by_cases h : other = key
        · simp [h]
        · simp [h, Ne.symm h, ← heq]
      · rename_i hne
        by_cases h : e.1 = other
        · have hother : other ≠ key := fun hk => hne (by rw [← hk, h])
          simp [h, hother]
        · simp [h, ih]

theorem get?_insert (t : Table α) (key : String) (a : α) (other : String) :
    (t.insert key a).get? other = if other = key then some a else t.get? other :=
  find?_insertEntry key a t.entries other

@[simp] theorem get?_insert_self (t : Table α) (key : String) (a : α) :
    (t.insert key a).get? key = some a := by
  simp [get?_insert]

theorem get?_insert_of_ne (t : Table α) {key other : String} (a : α) (h : other ≠ key) :
    (t.insert key a).get? other = t.get? other := by
  simp [get?_insert, h]

theorem get?_isSome_iff (t : Table α) (key : String) : (t.get? key).isSome ↔ key ∈ t.keys := by
  simp only [get?, keys, Option.isSome_map, List.find?_isSome, List.mem_map, decide_eq_true_eq]

theorem keys_insertEntry {key : String} {a : α} {es : List (String × α)}
    (hordered : es.Pairwise fun a b => a.1 < b.1) (hkey : key ∈ es.map (·.1)) :
    (insertEntry key a es).map (·.1) = es.map (·.1) := by
  induction es with
  | nil => simp at hkey
  | cons e es ih =>
    obtain ⟨he, hes⟩ := List.pairwise_cons.1 hordered
    simp only [insertEntry]
    split
    · -- the row is ordered, so a key in front of the first is not in it
      rename_i hlt
      rcases List.mem_cons.1 hkey with h | h
      · exact absurd (h ▸ hlt) (String.lt_irrefl _)
      · obtain ⟨x, hx, hxkey⟩ := List.mem_map.1 h
        have hgt := he x hx
        rw [hxkey] at hgt
        exact absurd (String.lt_trans hlt hgt) (String.lt_irrefl _)
    · split
      · rename_i heq
        simp [heq]
      · rename_i hne
        have hmem : key ∈ es.map (·.1) := by simpa [hne] using hkey
        simp [ih hes hmem]

theorem keys_insert_of_mem {t : Table α} {key : String} (a : α) (h : key ∈ t.keys) :
    (t.insert key a).keys = t.keys :=
  keys_insertEntry t.ordered h

/-! ### The table of its own entries -/

theorem insertEntry_of_lt {key : String} (a : α) {es : List (String × α)}
    (h : ∀ e ∈ es, e.1 < key) : insertEntry key a es = es ++ [(key, a)] := by
  induction es with
  | nil => rfl
  | cons e es ih =>
    have he := h e List.mem_cons_self
    have hnot : ¬key < e.1 := fun hlt => String.lt_irrefl _ (String.lt_trans he hlt)
    have hne : key ≠ e.1 := by
      rintro rfl
      exact String.lt_irrefl _ he
    rw [insertEntry, if_neg hnot, if_neg hne, ih fun x hx => h x (List.mem_cons_of_mem e hx),
      List.cons_append]

theorem entries_foldl_insert (es : List (String × α)) (t : Table α)
    (h : (t.entries ++ es).Pairwise fun a b => a.1 < b.1) :
    (es.foldl (fun t e => t.insert e.1 e.2) t).entries = t.entries ++ es := by
  induction es generalizing t with
  | nil => simp
  | cons e es ih =>
    have hbefore : ∀ x ∈ t.entries, x.1 < e.1 := by
      intro x hx
      exact (List.pairwise_append.1 h).2.2 x hx e List.mem_cons_self
    have hentries : (t.insert e.1 e.2).entries = t.entries ++ [e] := insertEntry_of_lt e.2 hbefore
    rw [List.foldl_cons, ih _ (by rwa [hentries, List.append_assoc]), hentries, List.append_assoc]
    rfl

/-- A table is the one of its entries in order. -/
theorem ofList_entries (t : Table α) : ofList t.entries = t := by
  apply ext
  rw [ofList, entries_foldl_insert t.entries empty (by simpa [empty] using t.ordered)]
  simp [empty]

/-! ### Entries by key -/

theorem find?_of_mem {es : List (String × α)} (hordered : es.Pairwise fun a b => a.1 < b.1)
    {e : String × α} (h : e ∈ es) : es.find? (·.1 = e.1) = some e := by
  induction es with
  | nil => cases h
  | cons x xs ih =>
    obtain ⟨hx, hxs⟩ := List.pairwise_cons.1 hordered
    rcases List.mem_cons.1 h with rfl | hmem
    · exact List.find?_cons_of_pos (by simp)
    · have hne : x.1 ≠ e.1 := by
        intro heq
        have hlt := hx e hmem
        rw [heq] at hlt
        exact String.lt_irrefl _ hlt
      rw [List.find?_cons_of_neg (by simpa using hne)]
      exact ih hxs hmem

theorem get?_eq_some_iff {t : Table α} {key : String} {a : α} :
    t.get? key = some a ↔ (key, a) ∈ t.entries := by
  rw [get?, Option.map_eq_some_iff]
  constructor
  · rintro ⟨e, he, rfl⟩
    obtain rfl : e.1 = key := by simpa using List.find?_some he
    exact List.mem_of_find?_eq_some he
  · intro h
    exact ⟨(key, a), find?_of_mem t.ordered h, rfl⟩

/-- Two tables that are read alike are the same. -/
theorem ext_get? {s t : Table α} (h : ∀ key, s.get? key = t.get? key) : s = t := by
  apply ext
  have hirrefl : Std.Irrefl fun a b : String × α => a.1 < b.1 := ⟨fun a => String.lt_irrefl a.1⟩
  apply s.ordered.eq_of_mem_iff t.ordered
  rintro ⟨key, a⟩
  rw [← get?_eq_some_iff, ← get?_eq_some_iff, h]

/-! ### One table over another -/

/-- The entries of both tables, those of the second over those of the first. -/
def overlay (s t : Table α) : Table α := t.entries.foldl (fun r e => r.insert e.1 e.2) s

theorem get?_foldl_insert {es : List (String × α)}
    (hordered : es.Pairwise fun a b => a.1 < b.1) (t : Table α) (key : String) :
    (es.foldl (fun r e => r.insert e.1 e.2) t).get? key =
      ((es.find? (·.1 = key)).map (·.2)).or (t.get? key) := by
  induction es generalizing t with
  | nil => rfl
  | cons e es ih =>
    obtain ⟨he, hes⟩ := List.pairwise_cons.1 hordered
    rw [List.foldl_cons, ih hes, get?_insert]
    by_cases hkey : e.1 = key
    · -- the keys increase, so that of the first entry does not come again
      have hnone : es.find? (·.1 = key) = none := by
        rw [List.find?_eq_none]
        intro x hx heq
        have hlt := he x hx
        rw [hkey, of_decide_eq_true heq] at hlt
        exact String.lt_irrefl _ hlt
      simp [hnone, hkey]
    · rw [if_neg (Ne.symm hkey), List.find?_cons_of_neg (by simpa using hkey)]

theorem get?_overlay (s t : Table α) (key : String) :
    (s.overlay t).get? key = (t.get? key).or (s.get? key) :=
  get?_foldl_insert t.ordered s key

@[simp] theorem overlay_empty (t : Table α) : t.overlay ∅ = t := rfl

theorem overlay_insert (s t : Table α) (key : String) (a : α) :
    s.overlay (t.insert key a) = (s.overlay t).insert key a := by
  apply ext_get?
  intro other
  rw [get?_overlay, get?_insert, get?_insert, get?_overlay]
  split
  · rfl
  · rfl

end PointOfSale.Table

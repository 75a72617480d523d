/-
  PointOfSale/Proofs/Json/Record.lean
  ===================================
  **Writers and readers that undo one another.**  `Restores write read` says that what
  is written of a value keeps through its text, and that the reader gives the value
  back.  Lists, tables and optional values restore as their parts do.
-/
import PointOfSale.Proofs.Json.Printed
import PointOfSale.Proofs.Table

namespace PointOfSale.Json

/-! ### Values that keep through their text -/

/-- The text of a value spells the value itself. -/
def IsSteady (j : Json) : Prop := reread? j = some j

@[simp] theorem isSteady_null : IsSteady .null := rfl

@[simp] theorem isSteady_bool (b : Bool) : IsSteady (.bool b) := rfl

@[simp] theorem isSteady_string (s : String) : IsSteady (.string s) := rfl

theorem isSteady_int {i : Int} (hlow : Figure.leastWhole ≤ i) (hhigh : i < Figure.wholeBound) :
    IsSteady (int i) :=
  Figure.reread?_whole hlow hhigh

theorem itemsReread?_of_steady {js : List Json} (h : ∀ j ∈ js, IsSteady j) :
    itemsReread? js = some js := by
  induction js with
  | nil => rfl
  | cons j js ih =>
    have hj : reread? j = some j := h j List.mem_cons_self
    simp [itemsReread?, hj, ih fun k hk => h k (List.mem_cons_of_mem j hk)]

theorem membersReread?_of_steady {ms : List (String × Json)} (h : ∀ m ∈ ms, IsSteady m.2) :
    membersReread? ms = some ms := by
  induction ms with
  | nil => rfl
  | cons m ms ih =>
    have hm : reread? m.2 = some m.2 := h m List.mem_cons_self
    simp [membersReread?, hm, ih fun k hk => h k (List.mem_cons_of_mem m hk)]

theorem isSteady_array {js : List Json} (h : ∀ j ∈ js, IsSteady j) : IsSteady (.array js) := by
  rw [IsSteady, reread?, itemsReread?_of_steady h, Option.map_some]

theorem isSteady_object {ms : List (String × Json)} (h : ∀ m ∈ ms, IsSteady m.2) :
    IsSteady (.object ms) := by
  rw [IsSteady, reread?, membersReread?_of_steady h, Option.map_some]

/-! ### Writers and readers -/

variable {α : Type} {write : α → Json} {read : Json → Option α}

/-- What is written keeps through its text, and is read as the value. -/
structure Restores (write : α → Json) (read : Json → Option α) : Prop where
  steady : ∀ a, IsSteady (write a)
  read : ∀ a, read (write a) = some a

theorem mapM_map_of_read {as : List α} (h : ∀ a ∈ as, read (write a) = some a) :
    (as.map write).mapM read = some as := by
  induction as with
  | nil => rfl
  | cons a as ih =>
    rw [List.map_cons, List.mapM_cons, h a List.mem_cons_self,
      ih fun b hb => h b (List.mem_cons_of_mem a hb)]
    rfl

theorem restores_bool : Restores .bool bool? := ⟨fun _ => rfl, fun _ => rfl⟩

theorem restores_string : Restores .string string? := ⟨fun _ => rfl, fun _ => rfl⟩

theorem Restores.list (h : Restores write read) : Restores (ofList write) (list? read) := by
  constructor
  · intro as
    apply isSteady_array
    intro j hj
    obtain ⟨a, -, rfl⟩ := List.mem_map.1 hj
    exact h.steady a
  · intro as
    exact mapM_map_of_read fun a _ => h.read a

theorem Restores.table (h : Restores write read) : Restores (ofTable write) (table? read) := by
  constructor
  · intro t
    apply isSteady_object
    intro m hm
    obtain ⟨e, -, rfl⟩ := List.mem_map.1 hm
    exact h.steady e.2
  · intro t
    have hentries : (t.entries.map fun e => (e.1, write e.2)).mapM
        (fun m => (read m.2).map fun a => (m.1, a)) = some t.entries := by
      induction t.entries with
      | nil => rfl
      | cons e es ih =>
        rw [List.map_cons, List.mapM_cons, ih, h.read]
        rfl
    rw [ofTable, table?, hentries, Option.map_some, Table.ofList_entries]

/-- An optional value, where no value is written as `null`. -/
theorem Restores.option (h : Restores write read) (hnull : ∀ a, write a ≠ .null) :
    Restores (ofOption write) (nullable? read) := by
  constructor
  · rintro (_ | a)
    · rfl
    · exact h.steady a
  · rintro (_ | a)
    · rfl
    · rw [ofOption, nullable?, h.read a, Option.map_some]
      exact hnull a

theorem restores_int64 : Restores (fun c : Int64 => int c.toInt) int64? := by
  constructor
  · intro c
    have hlow := c.le_toInt
    have hhigh := c.toInt_lt
    apply isSteady_int
    · exact hlow
    · exact Int.lt_of_lt_of_le hhigh (by decide)
  · intro c
    have hrange : -2 ^ (63 : Nat) ≤ c.toInt ∧ c.toInt < 2 ^ (63 : Nat) := ⟨c.le_toInt, c.toInt_lt⟩
    rw [int64?, int, whole?, Option.bind_some, if_pos hrange, Int64.ofInt_toInt]

theorem restores_uint64 : Restores (fun n : UInt64 => nat n.toNat) uint64? := by
  constructor
  · intro n
    have hlt := n.toNat_lt
    apply isSteady_int
    · exact Int.le_trans (by decide) (Int.natCast_nonneg n.toNat)
    · exact_mod_cast hlt
  · intro n
    have hlt := n.toNat_lt
    have hrange : (0 : Int) ≤ n.toNat ∧ (n.toNat : Int) < 2 ^ (64 : Nat) :=
      ⟨Int.natCast_nonneg _, by exact_mod_cast hlt⟩
    rw [uint64?, nat, int, whole?, Option.bind_some, if_pos hrange, Int.toNat_natCast,
      UInt64.ofNat_toNat]

end PointOfSale.Json

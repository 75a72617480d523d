/-
  PointOfSale/Proofs/Binary64/Printed.lean
  ========================================
  **The digits of a printed value.**  A value is printed as the row of its shortest
  digits with a point in it, zeros filling the gap on either side.  In front of the point
  and behind it stand rows of digits again (`pointRows`); together they denote the digits
  times their power of ten.
-/
import PointOfSale.Binary64
import PointOfSale.Proofs.Binary64.Shortest
import PointOfSale.Proofs.Text.Digits

namespace PointOfSale

open Text (natural ofDigits)

namespace Text

theorem ofDigits_replicate_zero_append (base count : Nat) (ds : List Nat) :
    ofDigits base (List.replicate count 0 ++ ds) = ofDigits base ds := by
  induction count with
  | zero => rfl
  | succ count ih =>
    rw [List.replicate_succ, List.cons_append, ofDigits, List.foldl_cons, Nat.zero_mul]
    exact ih

theorem ofDigits_append_replicate_zero (base count : Nat) (ds : List Nat) :
    ofDigits base (ds ++ List.replicate count 0) = ofDigits base ds * base ^ count := by
  induction count with
  | zero => simp
  | succ count ih =>
    rw [List.replicate_succ', ← List.append_assoc, ofDigits_concat, ih, pow_succ, mul_assoc]
    rfl

end Text

namespace Binary64

/-! ### Placing the point -/

/-- The rows of digits in front of the point and behind it. -/
def pointRows (ds : List Nat) (whole : Int) : List Nat × List Nat :=
  if whole ≤ 0 then ([0], List.replicate (-whole).toNat 0 ++ ds)
  else (ds.take whole.toNat ++ List.replicate (whole.toNat - ds.length) 0, ds.drop whole.toNat)

theorem placePoint_map (ds : List Nat) (whole : Int) :
    placePoint (ds.map Nat.digitChar) whole =
      ((pointRows ds whole).1.map Nat.digitChar, (pointRows ds whole).2.map Nat.digitChar) := by
  have hzero : Nat.digitChar 0 = '0' := rfl
  unfold placePoint pointRows zeros
  split <;> simp [List.map_take, List.map_drop, hzero]

section Rows

variable {ds : List Nat} {whole : Int}

theorem lt_ten_of_mem_pointRows (hds : ∀ d ∈ ds, d < 10) {d : Nat}
    (hd : d ∈ (pointRows ds whole).1 ∨ d ∈ (pointRows ds whole).2) : d < 10 := by
  unfold pointRows at hd
  split at hd
  · simp only [List.mem_singleton, List.mem_append, List.mem_replicate] at hd
    rcases hd with rfl | ⟨-, rfl⟩ | hd
    · decide
    · decide
    · exact hds d hd
  · simp only [List.mem_append, List.mem_replicate] at hd
    rcases hd with (hd | ⟨-, rfl⟩) | hd
    · exact hds d (List.mem_of_mem_take hd)
    · decide
    · exact hds d (List.mem_of_mem_drop hd)

theorem pointRows_fst_ne_nil (hds : ds ≠ []) : (pointRows ds whole).1 ≠ [] := by
  unfold pointRows
  split
  · exact List.cons_ne_nil 0 []
  · rename_i hwhole
    obtain ⟨d, rest, rfl⟩ := List.exists_cons_of_ne_nil hds
    obtain ⟨n, hn⟩ := Nat.exists_eq_succ_of_ne_zero (by omega : whole.toNat ≠ 0)
    simp [hn]

/-- Only a zero by itself stands in front of other digits before the point. -/
theorem pointRows_fst_of_head (hds : ds ≠ []) (hzero : ds.head? = some 0 → ds = [0] ∧ whole = 1)
    (h : (pointRows ds whole).1.head? = some 0) : (pointRows ds whole).1 = [0] := by
  unfold pointRows at h ⊢
  split at h
  · rw [if_pos ‹_›]
  · rename_i hwhole
    rw [if_neg hwhole]
    obtain ⟨d, rest, rfl⟩ := List.exists_cons_of_ne_nil hds
    obtain ⟨n, hn⟩ := Nat.exists_eq_succ_of_ne_zero (by omega : whole.toNat ≠ 0)
    have hfirst : (d :: rest).head? = some 0 := by simpa [hn] using h
    obtain ⟨hone, rfl⟩ := hzero hfirst
    rw [hone]
    rfl

theorem ofDigits_pointRows (ds : List Nat) (exponent : Int) :
    ofDigits 10 ((pointRows ds (ds.length + exponent)).1 ++
        (pointRows ds (ds.length + exponent)).2) = ofDigits 10 ds * 10 ^ exponent.toNat ∧
      (pointRows ds (ds.length + exponent)).2.length = (-exponent).toNat := by
  unfold pointRows
  split
  · have hexponent : exponent.toNat = 0 := by omega
    rw [hexponent, pow_zero, mul_one]
    constructor
    · exact (Text.ofDigits_replicate_zero_append 10 1 _).trans
        (Text.ofDigits_replicate_zero_append 10 _ ds)
    · rw [List.length_append, List.length_replicate]
      omega
  · rcases le_total exponent 0 with hexponent | hexponent
    · have hnone : ((ds.length : Int) + exponent).toNat - ds.length = 0 := by omega
      have hzero : exponent.toNat = 0 := by omega
      rw [hnone, hzero, List.replicate_zero, List.append_nil, List.take_append_drop, pow_zero,
        mul_one, List.length_drop]
      exact ⟨rfl, by omega⟩
    · have hall : ds.length ≤ ((ds.length : Int) + exponent).toNat := by omega
      have hcount : ((ds.length : Int) + exponent).toNat - ds.length = exponent.toNat := by omega
      rw [List.take_of_length_le hall, List.drop_of_length_le hall, hcount, List.append_nil,
        Text.ofDigits_append_replicate_zero]
      exact ⟨rfl, by simp; omega⟩

end Rows

end Binary64

end PointOfSale

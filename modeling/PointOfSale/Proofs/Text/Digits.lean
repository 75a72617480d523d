/-
  PointOfSale/Proofs/Text/Digits.lean
  ===================================
  **Rows of digits.**  A natural number in full and the last places of a number
  are both written as rows of digits.  The rows are named here, with the number
  that each denotes, so that a reader meets digits and not characters.
-/
import Mathlib.Data.List.Induction
import Mathlib.Data.List.TakeWhile
import PointOfSale.Text.Basic

namespace PointOfSale.Text

/-! ### Characters of a row -/

/-- Checking a row character by character, and not all characters there are. -/
theorem forall_mem_of_all {p : Char → Prop} [DecidablePred p] {cs : List Char}
    (h : cs.all (fun c => decide (p c)) = true) : ∀ c ∈ cs, p c := by
  simpa using h

/-! ### One digit -/

theorem digit?_digitChar {d : Nat} (hd : d < 10) : digit? (Nat.digitChar d) = some d := by
  have hall : ∀ e < 10, digit? (Nat.digitChar e) = some e := by decide
  exact hall d hd

/-- The characters of a decimal in positional notation, none of which is white space, a
    parenthesis or a plus sign. -/
def isPositional (c : Char) : Bool := c = '-' || c = '.' || (digit? c).isSome

theorem isPositional_digitChar {d : Nat} (hd : d < 10) : isPositional (Nat.digitChar d) = true := by
  simp [isPositional, digit?_digitChar hd]

theorem isBlank_of_isPositional {c : Char} (hc : isPositional c = true) : isBlank c = false := by
  have hcode : 48 ≤ c.toNat ∧ c.toNat ≤ 57 ∨ c.toNat = 45 ∨ c.toNat = 46 := by
    simp only [isPositional, Bool.or_eq_true, decide_eq_true_eq] at hc
    rcases hc with (rfl | rfl) | hdigit
    · exact Or.inr (Or.inl rfl)
    · exact Or.inr (Or.inr rfl)
    · rw [digit?] at hdigit
      split at hdigit
      case isTrue hrange => exact Or.inl hrange
      case isFalse => simp at hdigit
  simp only [isBlank, blankRanges, List.any_cons, List.any_nil, Bool.or_false, Bool.or_eq_false_iff,
    Bool.and_eq_false_iff, decide_eq_false_iff_not]
  omega

/-! ### Text without white space -/

theorem trim_of_forall {cs : List Char} (hcs : ∀ c ∈ cs, isBlank c = false) : trim cs = cs := by
  have hdrop : ∀ ds : List Char, (∀ c ∈ ds, isBlank c = false) → ds.dropWhile isBlank = ds := by
    intro ds hds
    rw [List.dropWhile_eq_self_iff]
    intro hlen
    simp [hds _ (List.getElem_mem hlen)]
  have hreverse : ∀ c ∈ cs.reverse, isBlank c = false := by
    intro c hc
    exact hcs c (List.mem_reverse.mp hc)
  rw [trim, trimStart, hdrop cs hcs, trimEnd, hdrop _ hreverse, List.reverse_reverse]

/-! ### A number in full -/

theorem ofDigits_concat (base : Nat) (ds : List Nat) (d : Nat) :
    ofDigits base (ds ++ [d]) = ofDigits base ds * base + d := by
  simp [ofDigits]

theorem ofDigits_append (base : Nat) (ds es : List Nat) :
    ofDigits base (ds ++ es) = es.foldl (fun n d => n * base + d) (ofDigits base ds) :=
  List.foldl_append ..

/-- Further digits make a number no smaller. -/
theorem le_foldl_digits (ds : List Nat) (size : Nat) :
    size ≤ ds.foldl (fun n d => n * 10 + d) size := by
  induction ds generalizing size with
  | nil => exact Nat.le_refl _
  | cons d ds ih => exact Nat.le_trans (by omega) (ih (size * 10 + d))

theorem exists_ne_zero_of_ofDigits {base : Nat} {ds : List Nat} (h : ofDigits base ds ≠ 0) :
    ∃ d ∈ ds, d ≠ 0 := by
  induction ds using List.reverseRecOn with
  | nil => exact absurd rfl h
  | append_singleton ds d ih =>
    by_cases hd : d = 0
    · have hfront : ofDigits base ds ≠ 0 := by
        intro hzero
        rw [ofDigits_concat, hzero, hd, Nat.zero_mul] at h
        exact h rfl
      obtain ⟨e, he, hne⟩ := ih hfront
      exact ⟨e, List.mem_append_left _ he, hne⟩
    · exact ⟨d, by simp, hd⟩

/-- The digits of a number in full; only zero begins with a zero. -/
theorem exists_natural (n : Nat) :
    ∃ ds : List Nat, natural n = ds.map Nat.digitChar ∧ ds ≠ [] ∧ (∀ d ∈ ds, d < 10) ∧
      ofDigits 10 ds = n ∧ (ds.head? = some 0 → ds = [0]) := by
  induction n using Nat.strongRecOn with
  | ind n ih =>
    by_cases hn : n < 10
    · refine ⟨[n], ?_, by simp, by simpa using hn, by simp [ofDigits], by simp⟩
      simp [natural, Nat.toDigits_of_lt_base hn]
    · obtain ⟨ds, htext, hne, hlt, hvalue, hzero⟩ := ih (n / 10) (by omega)
      refine ⟨ds ++ [n % 10], ?_, by simp, ?_, ?_, ?_⟩
      · rw [natural, Nat.toDigits_of_base_le (by decide) (by omega)]
        rw [natural] at htext
        simp [htext]
      · intro d hd
        rcases List.mem_append.mp hd with hd | hd
        · exact hlt d hd
        · rw [List.mem_singleton.mp hd]
          omega
      · rw [ofDigits_concat, hvalue]
        omega
      · intro hhead
        have hfront : ds.head? = some 0 := by
          cases ds with
          | nil => exact absurd rfl hne
          | cons d ds => exact hhead
        rw [hzero hfront] at hvalue
        have hsmall : n / 10 = 0 := by rw [← hvalue]; rfl
        omega

/-! ### The last places of a number -/

/-- The last `count` decimal digits of a number. -/
def lastPlaces : (count : Nat) → Nat → List Nat
  | 0, _ => []
  | count + 1, n => lastPlaces count (n / 10) ++ [n % 10]

theorem lastDigits_eq_map (count n : Nat) :
    lastDigits 10 count n = (lastPlaces count n).map Nat.digitChar := by
  induction count generalizing n with
  | zero => rfl
  | succ count ih => simp [lastDigits, lastPlaces, ih]

theorem length_lastDigits (base count n : Nat) : (lastDigits base count n).length = count := by
  induction count generalizing n with
  | zero => rfl
  | succ count ih => simp [lastDigits, ih]

theorem length_lastPlaces (count n : Nat) : (lastPlaces count n).length = count := by
  simpa [lastDigits_eq_map] using length_lastDigits 10 count n

theorem getLast?_lastPlaces {count : Nat} (hcount : count ≠ 0) (n : Nat) :
    (lastPlaces count n).getLast? = some (n % 10) := by
  obtain ⟨k, rfl⟩ := Nat.exists_eq_succ_of_ne_zero hcount
  exact List.getLast?_concat ..

theorem lt_ten_of_mem_lastPlaces {count n d : Nat} (hd : d ∈ lastPlaces count n) : d < 10 := by
  induction count generalizing n with
  | zero => simp [lastPlaces] at hd
  | succ count ih =>
    rcases List.mem_append.mp hd with hd | hd
    · exact ih hd
    · rw [List.mem_singleton.mp hd]
      omega

end PointOfSale.Text

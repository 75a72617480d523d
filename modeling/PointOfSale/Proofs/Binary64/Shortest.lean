/-
  PointOfSale/Proofs/Binary64/Shortest.lean
  =========================================
  **The shortest digits of a value.**  A number lies in the interval of the value that it
  is rounded to.  Where that interval is narrower than the grid of the number's last digit,
  the number is the only point of the grid in it; then every coarser grid has this point or
  none, and the search ends with the digits of the number itself (`shortest_of_ofSize?`).
  Fifteen digits are always few enough for that.  An interval without a point of a grid is
  not much wider than the grid, so no value needs more than seventeen
  (`digits_shortest_lt`).
-/
import PointOfSale.Binary64
import PointOfSale.Proofs.Binary64.Nearest

namespace PointOfSale.Binary64

-- powers with this exponent are never computed
attribute [local irreducible] stepBits

/-! ### The interval of a value -/

section Interval

variable {x : Binary64}

theorem spacing_pos (x : Binary64) : 0 < x.spacing := by
  unfold spacing
  positivity

/-- A value that is not zero is at least as great as the spacing around it. -/
theorem spacing_le_decimalSteps (h : x.isZero = false) : x.spacing ≤ x.decimalSteps := by
  have hmant : x.mant ≠ 0 := by simpa [isZero] using h
  exact Nat.le_mul_of_pos_left _ (Nat.pos_of_ne_zero hmant)

theorem near_of_reads {w : Nat} (h : x.reads (4 * w) = true) :
    2 * w ≤ 2 * x.decimalSteps + x.spacing ∧ 2 * x.decimalSteps ≤ 2 * w + x.spacing := by
  have hends : x.lowerEnd ≤ 4 * w ∧ 4 * w ≤ x.upperEnd := by
    unfold reads at h
    split at h <;> simp only [Bool.and_eq_true, decide_eq_true_eq] at h <;> omega
  unfold lowerEnd upperEnd at hends
  split at hends <;> omega

/-- Two points of a grid in one interval are the same if the grid is wider than that. -/
theorem eq_of_reads {step n m : Nat} (hstep : x.spacing < step)
    (hn : x.reads (4 * (n * step)) = true) (hm : x.reads (4 * (m * step)) = true) : n = m := by
  have hnear := near_of_reads hn
  have hmear := near_of_reads hm
  rcases Nat.lt_trichotomy n m with hlt | heq | hgt
  · have hnext : (n + 1) * step ≤ m * step := Nat.mul_le_mul_right step hlt
    rw [Nat.add_mul] at hnext
    omega
  · exact heq
  · have hnext : (m + 1) * step ≤ n * step := Nat.mul_le_mul_right step hgt
    rw [Nat.add_mul] at hnext
    omega

/-- A number between two ends that are met only by even counts of steps. -/
theorem ends_of_nearestEven {step w n : Nat} (hstep : 0 < step)
    (h : NearestEven ((w : ℚ) / step) n) :
    2 * w ≤ (2 * n + 1) * step ∧ 2 * n * step ≤ 2 * w + step ∧
      (n % 2 ≠ 0 → 2 * w < (2 * n + 1) * step ∧ 2 * n * step < 2 * w + step) := by
  have hpos : (0 : ℚ) < step := by exact_mod_cast hstep
  have hw : (w : ℚ) = w / step * step := (div_mul_cancel₀ _ hpos.ne').symm
  have hle := abs_le.1 h.abs_sub_le
  push_cast at hle
  have hupper : (2 * w : ℚ) ≤ (2 * n + 1) * step := by nlinarith
  have hlower : (2 * n * step : ℚ) ≤ 2 * w + step := by nlinarith
  refine ⟨by exact_mod_cast hupper, by exact_mod_cast hlower, ?_⟩
  intro hodd
  have hlt : |(w : ℚ) / step - n| < 1 / 2 := by
    rcases h with h | ⟨-, heven⟩
    · exact_mod_cast h
    · omega
  rw [abs_lt] at hlt
  have hupper : (2 * w : ℚ) < (2 * n + 1) * step := by nlinarith
  have hlower : (2 * n * step : ℚ) < 2 * w + step := by nlinarith
  exact ⟨by exact_mod_cast hupper, by exact_mod_cast hlower⟩

/-- A number within half a step of a value lies in its interval, if it is not closer to the
    values below a power of two. -/
theorem reads_of_ends {w : Nat} (hupper : 2 * w ≤ (2 * x.mant + 1) * x.spacing)
    (hlower : 2 * x.mant * x.spacing ≤ 2 * w + x.spacing)
    (hodd : x.mant % 2 ≠ 0 →
      2 * w < (2 * x.mant + 1) * x.spacing ∧ 2 * x.mant * x.spacing < 2 * w + x.spacing)
    (hfull : x.mant = 2 ^ 52 ∧ x.shift ≠ 0 → x.mant * x.spacing ≤ w) :
    x.reads (4 * w) = true := by
  unfold reads upperEnd lowerEnd decimalSteps
  rw [Nat.add_mul, Nat.mul_assoc] at hupper hodd
  rw [Nat.mul_assoc] at hlower
  have hone : x.mant % 2 ≠ 0 → x.spacing ≤ x.mant * x.spacing := fun h =>
    Nat.le_mul_of_pos_left _ (by omega)
  generalize x.mant * x.spacing = steps at hupper hlower hodd hfull hone ⊢
  split
  · simp only [Bool.and_eq_true, decide_eq_true_eq]
    split
    · rename_i hends
      have hfull := hfull hends
      omega
    · omega
  · rename_i hne
    have hodd := hodd hne
    have hone := hone hne
    simp only [Bool.and_eq_true, decide_eq_true_eq]
    split
    · rename_i hends
      rw [hends.1] at hne
      exact absurd rfl hne
    · omega

/-- A number less than half a step of the values below a power of two lies in the interval
    of that power. -/
theorem reads_of_carried {step w : Nat} (hmant : x.mant = 2 ^ 52) (hshift : x.shift ≠ 0)
    (hspacing : x.spacing = 2 * step) (hlower : 2 * 2 ^ 53 * step ≤ 2 * w + step)
    (hlt : w < 2 ^ 53 * step) : x.reads (4 * w) = true := by
  have heven : x.mant % 2 = 0 := by
    rw [hmant]
    rfl
  rw [reads, lowerEnd, upperEnd, decimalSteps, if_pos heven, if_pos ⟨hmant, hshift⟩, hspacing,
    hmant, Bool.and_eq_true, decide_eq_true_eq, decide_eq_true_eq]
  omega

/-- **A number lies in the interval of its value.** -/
theorem reads_of_ofSize? {q : ℚ} {w : Nat} (hq : 0 ≤ q) (hw : q * 10 ^ stepBits = w)
    (h : ofSize? q = some x) : x.reads (4 * w) = true := by
  obtain ⟨step, hstep⟩ : ∃ step, step = 2 ^ binade q * 5 ^ stepBits := ⟨_, rfl⟩
  have hpos : 0 < step := by
    rw [hstep]
    positivity
  have hcount : (w : ℚ) / step = q * 2 ^ stepBits / 2 ^ binade q := by
    have hten : (10 : ℚ) ^ stepBits = 2 ^ stepBits * 5 ^ stepBits := by
      rw [← mul_pow]
      norm_num
    rw [← hw, hten, hstep]
    push_cast
    field_simp
  have hnear := nearestEven_significand hq
  rw [← hcount] at hnear
  obtain ⟨hupper, hlower, hodd⟩ := ends_of_nearestEven hpos hnear
  rcases parts_of_ofSize? h with ⟨hmant, hshift⟩ | ⟨hcarried, hmant, hshift⟩
  · have hspacing : x.spacing = step := by rw [spacing, hshift, hstep]
    rw [← hmant, ← hspacing] at hupper hlower hodd
    refine reads_of_ends hupper hlower hodd ?_
    rintro ⟨hpower, hne⟩
    have hle := binade_le hq (hshift ▸ hne)
    rw [pow_add, ← le_div_iff₀ (by positivity), ← hcount, le_div_iff₀ (by exact_mod_cast hpos)]
      at hle
    rw [hpower, hspacing]
    exact_mod_cast hle
  · have hspacing : x.spacing = 2 * step := by
      rw [spacing, hshift, pow_succ, mul_comm _ 2, mul_assoc, hstep]
    have hlt : w < 2 ^ 53 * step := by
      have hlt := lt_binade q
      rw [pow_add, ← div_lt_iff₀ (by positivity), ← hcount, div_lt_iff₀ (by exact_mod_cast hpos)]
        at hlt
      exact_mod_cast hlt
    rw [hcarried] at hlower
    exact reads_of_carried hmant (by omega) hspacing hlower hlt

end Interval

/-! ### The search for digits -/

section Search

variable {x : Binary64} {tie : Tie} {step n : Nat}

theorem reads_of_gridPoint? (h : gridPoint? tie x step = some n) :
    x.reads (4 * (n * step)) = true := by
  have hchoice : ∀ below, tie.choose below = below ∨ tie.choose below = below + 1 := by
    intro below
    cases tie with
    | toEven =>
      dsimp only [Tie.choose]
      omega
    | up => exact .inr rfl
  unfold gridPoint? at h
  simp only at h
  split at h
  · rename_i hbelow habove
    split at h
    · cases h
      exact hbelow
    · split at h
      · cases h
        exact habove
      · cases h
        rcases hchoice (x.decimalSteps / step) with hn | hn
        · rw [hn]
          exact hbelow
        · rw [hn]
          exact habove
  · rename_i hbelow _
    cases h
    exact hbelow
  · rename_i _ habove
    cases h
    exact habove
  · cases h

/-- If a grid gives no point, neither neighbour of the value lies in the interval. -/
theorem reads_of_gridPoint?_none (h : gridPoint? tie x step = none) :
    x.reads (4 * (x.decimalSteps / step * step)) = false ∧
      x.reads (4 * ((x.decimalSteps / step + 1) * step)) = false := by
  unfold gridPoint? at h
  simp only at h
  split at h
  · split at h
    · cases h
    · split at h <;> cases h
  · cases h
  · cases h
  · exact ⟨‹_›, ‹_›⟩

/-- A grid that is wider than the interval gives the point that it has there. -/
theorem gridPoint?_of_reads (hstep : x.spacing < step) (h : x.reads (4 * (n * step)) = true) :
    gridPoint? tie x step = some n := by
  have hpos : 0 < step := lt_of_le_of_lt (Nat.zero_le _) hstep
  have hnear := near_of_reads h
  have hneighbour : n = x.decimalSteps / step ∨ n = x.decimalSteps / step + 1 := by
    have hdiv := Nat.div_add_mod x.decimalSteps step
    have hmod := Nat.mod_lt x.decimalSteps hpos
    generalize x.decimalSteps / step = below at hdiv ⊢
    rw [mul_comm] at hdiv
    rcases Nat.lt_trichotomy n below with hlt | heq | hgt
    · have hnext : (n + 1) * step ≤ below * step := Nat.mul_le_mul_right step hlt
      rw [Nat.add_mul] at hnext
      omega
    · exact .inl heq
    · rcases Nat.lt_or_ge (below + 1) n with hlt | hle
      · have hnext : (below + 2) * step ≤ n * step := Nat.mul_le_mul_right step hlt
        rw [Nat.add_mul] at hnext
        omega
      · exact .inr (le_antisymm hle hgt)
  cases hpoint : gridPoint? tie x step with
  | some m => rw [eq_of_reads hstep (reads_of_gridPoint? hpoint) h]
  | none =>
    obtain ⟨hbelow, habove⟩ := reads_of_gridPoint?_none hpoint
    rcases hneighbour with heq | heq
    · rw [← heq, h] at hbelow
      cases hbelow
    · rw [← heq, h] at habove
      cases habove

/-- A search from above finds the one point of a grid that is wider than the interval, on
    this grid or on a coarser one. -/
theorem exists_search_eq (tie : Tie) {place top : Nat} (hplace : 0 < place) (hle : place ≤ top)
    (hspacing : x.spacing < 10 ^ place) (h : x.reads (4 * (n * 10 ^ place)) = true) :
    ∃ k z : Nat, search tie x top = ⟨k, ((place + z : Nat) : Int) - stepBits⟩ ∧ k * 10 ^ z = n := by
  induction top, hle using Nat.le_induction with
  | base =>
    obtain ⟨below, rfl⟩ := Nat.exists_eq_succ_of_ne_zero hplace.ne'
    refine ⟨n, 0, ?_, by rw [pow_zero, mul_one]⟩
    rw [search, gridPoint?_of_reads hspacing h]
    rfl
  | succ top hle ih =>
    rw [search]
    cases hpoint : gridPoint? tie x (10 ^ (top + 1)) with
    | none => exact ih
    | some k =>
      obtain ⟨z, hz⟩ := Nat.exists_eq_add_of_le (Nat.le_succ_of_le hle)
      refine ⟨k, z, ?_, ?_⟩
      · rw [← hz]
        rfl
      · have hread := reads_of_gridPoint? hpoint
        rw [Nat.succ_eq_add_one] at hz
        rw [hz, add_comm, pow_add, ← mul_assoc k] at hread
        exact eq_of_reads hspacing hread h

/-- Only zero reads as zero. -/
theorem ne_zero_of_reads (hzero : x.isZero = false) (h : x.reads (4 * n) = true) : n ≠ 0 := by
  rintro rfl
  have hspacing := spacing_le_decimalSteps hzero
  have hnear := (near_of_reads h).2
  have hpos := x.spacing_pos
  omega

theorem digits_search_ne_zero (hzero : x.isZero = false) (place : Nat) :
    (search tie x place).digits ≠ 0 := by
  induction place with
  | zero => exact (lt_of_lt_of_le x.spacing_pos (spacing_le_decimalSteps hzero)).ne'
  | succ place ih =>
    rw [search]
    split
    · rename_i n hpoint
      rintro rfl
      refine ne_zero_of_reads hzero (reads_of_gridPoint? hpoint) ?_
      rw [zero_mul]
    · exact ih

/-- The digits of a value are those of its size. -/
@[simp] theorem shortest_withSign (tie : Tie) (negative : Bool) (x : Binary64) :
    (x.withSign negative).shortest tie = x.shortest tie := by
  have hsearch : ∀ place, search tie (x.withSign negative) place = search tie x place := by
    intro place
    induction place with
    | zero => rfl
    | succ place ih =>
      rw [search, search, ih]
      rfl
  rw [shortest, shortest, hsearch]
  rfl

/-- Zero is written without an exponent. -/
theorem exponent_of_digits_eq_zero (h : (x.shortest tie).digits = 0) :
    (x.shortest tie).exponent = 0 := by
  unfold shortest at h ⊢
  split at h
  · rw [if_pos ‹_›]
  · rename_i hzero
    exact absurd h (digits_search_ne_zero (by simpa using hzero) _)

/-! ### The number of digits -/

/-- A grid without a point in the interval is about as wide as that. -/
theorem spacing_le_of_gridPoint?_none (hzero : x.isZero = false)
    (hstep : 0 < step) (h : gridPoint? tie x step = none) :
    3 * x.spacing ≤ 4 * step ∧ (x.mant ≠ 2 ^ 52 → x.spacing ≤ step) := by
  have hspacing := spacing_le_decimalSteps hzero
  have hpos := x.spacing_pos
  have hdiv := Nat.div_add_mod x.decimalSteps step
  have hmod := Nat.mod_lt x.decimalSteps hstep
  have hneither := reads_of_gridPoint?_none h
  rw [Nat.add_mul, Nat.one_mul] at hneither
  rw [Nat.mul_comm step] at hdiv
  generalize x.decimalSteps / step * step = below at hneither hdiv
  -- the neighbours are beyond the two ends
  have hends : 4 * below ≤ x.lowerEnd ∧ x.upperEnd ≤ 4 * (below + step) := by
    unfold reads at hneither
    have hwithin : 4 * below < x.upperEnd ∧ x.lowerEnd < 4 * (below + step) := by
      unfold upperEnd lowerEnd
      split <;> omega
    split at hneither <;>
      simp only [Bool.and_eq_false_iff, decide_eq_false_iff_not] at hneither <;> omega
  unfold upperEnd lowerEnd at hends
  split at hends <;> omega

/-- The search ends before a grid that is too fine for seventeen digits. -/
theorem digits_search_lt {place : Nat} (hzero : x.isZero = false)
    (h : 3 * x.spacing ≤ 4 * 10 ^ (place + 1) ∧ (x.mant ≠ 2 ^ 52 → x.spacing ≤ 10 ^ (place + 1))) :
    (search tie x place).digits < 10 ^ 17 := by
  induction place with
  | zero =>
    -- the finest grid is never reached
    have hfive : 5 ^ 3 ≤ 5 ^ stepBits := Nat.pow_le_pow_right (by decide) (by unfold stepBits; decide)
    have hspacing : 1 * 5 ^ stepBits ≤ x.spacing := Nat.mul_le_mul_right _ Nat.one_le_two_pow
    omega
  | succ place ih =>
    rw [search]
    split
    · rename_i n hpoint
      have hnear := (near_of_reads (reads_of_gridPoint? hpoint)).1
      have hmant := x.mant_lt
      dsimp only
      rw [pow_succ 10 (place + 1)] at h
      have hcount : x.decimalSteps = x.mant * x.spacing := rfl
      have hsteps : x.mant * x.spacing ≤ (2 ^ 53 - 1) * x.spacing :=
        Nat.mul_le_mul_right _ (by omega)
      have hpos : 0 < 10 ^ (place + 1) := by positivity
      by_contra hge
      have hlong : 10 ^ 17 * 10 ^ (place + 1) ≤ n * 10 ^ (place + 1) :=
        Nat.mul_le_mul_right _ (by omega)
      by_cases hpower : x.mant = 2 ^ 52
      · rw [hcount, hpower] at hnear
        omega
      · have hwide := h.2 hpower
        rw [hcount] at hnear
        omega
    · rename_i hpoint
      exact ih (spacing_le_of_gridPoint?_none hzero (by positivity) hpoint)

/-- **Seventeen digits suffice for every value.** -/
theorem digits_shortest_lt (tie : Tie) (x : Binary64) : (x.shortest tie).digits < 10 ^ 17 := by
  unfold shortest
  split
  · decide
  · rename_i hsome
    have hzero : x.isZero = false := by simpa using hsome
    have hspacing := spacing_le_decimalSteps hzero
    have hlog : x.decimalSteps < 2 ^ (Nat.log2 x.decimalSteps + 1) := Nat.lt_log2_self
    have htop : 2 ^ (Nat.log2 x.decimalSteps + 1) ≤ 10 ^ (Nat.log2 x.decimalSteps / 3 + 2 + 1) :=
      calc 2 ^ (Nat.log2 x.decimalSteps + 1) ≤ 2 ^ (3 * (Nat.log2 x.decimalSteps / 3 + 2 + 1)) :=
            Nat.pow_le_pow_right (by decide) (by omega)
        _ = 8 ^ (Nat.log2 x.decimalSteps / 3 + 2 + 1) := by rw [pow_mul]; rfl
        _ ≤ 10 ^ (Nat.log2 x.decimalSteps / 3 + 2 + 1) := Nat.pow_le_pow_left (by decide) _
    exact digits_search_lt hzero ⟨by omega, fun _ => by omega⟩

end Search

/-! ### Decimals of few digits -/

section Shortest

variable {x : Binary64} {n s : Nat}

/-- Numbers below this bound have few enough digits. -/
def digitsBound : Nat := 10 ^ 15

/-- Between two values near a number of few digits there is less than a unit of its last
    digit. -/
theorem spacing_lt (hn : n < digitsBound) (hs : s ≤ exactPlaces)
    (h : x.reads (4 * (n * 10 ^ (stepBits - s))) = true) : x.spacing < 10 ^ (stepBits - s) := by
  have hlow : s + 52 ≤ stepBits := by
    unfold stepBits
    unfold exactPlaces at hs
    omega
  rcases x.full with hfull | hsmall
  · have hnear := (near_of_reads h).2
    have hsteps : 2 ^ 52 * x.spacing ≤ x.decimalSteps := Nat.mul_le_mul_right _ hfull
    have hsize : n * 10 ^ (stepBits - s) ≤ digitsBound * 10 ^ (stepBits - s) :=
      Nat.mul_le_mul_right _ hn.le
    unfold digitsBound at hsize
    generalize 10 ^ (stepBits - s) = unit at hnear hsize ⊢
    have hpos := x.spacing_pos
    omega
  · -- among the smallest values the spacing is that of the smallest step
    have hfive : 5 ^ s < 2 ^ (stepBits - s) :=
      calc 5 ^ s ≤ 5 ^ 22 := Nat.pow_le_pow_right (by decide) hs
        _ < 2 ^ 52 := by norm_num
        _ ≤ 2 ^ (stepBits - s) := Nat.pow_le_pow_right (by decide) (by omega)
    have hten : 10 ^ (stepBits - s) = 2 ^ (stepBits - s) * 5 ^ (stepBits - s) := by
      rw [← Nat.mul_pow]
    have hsplit : 5 ^ stepBits = 5 ^ s * 5 ^ (stepBits - s) := by
      rw [← pow_add]
      congr 1
      omega
    rw [spacing, hsmall, pow_zero, one_mul, hten, hsplit]
    exact Nat.mul_lt_mul_of_pos_right hfive (by positivity)

theorem le_top {p : Nat} (hn : 0 < n) (h : x.reads (4 * (n * 10 ^ p)) = true)
    (hzero : x.isZero = false) : p ≤ Nat.log2 x.decimalSteps / 3 + 2 := by
  have hspacing := spacing_le_decimalSteps hzero
  have hnear := (near_of_reads h).1
  have hpower : 1 * 10 ^ p ≤ n * 10 ^ p := Nat.mul_le_mul_right _ hn
  have hlog : x.decimalSteps < 2 ^ (Nat.log2 x.decimalSteps + 1) := Nat.lt_log2_self
  have height : 2 ^ (3 * p) ≤ 10 ^ p := by
    rw [pow_mul]
    exact Nat.pow_le_pow_left (by norm_num) p
  have hlt : 2 ^ (3 * p) < 2 ^ (Nat.log2 x.decimalSteps + 2) := by
    rw [pow_succ 2 (Nat.log2 x.decimalSteps + 1)]
    omega
  have hexponent := (Nat.pow_lt_pow_iff_right (by norm_num)).1 hlt
  omega

/-- **The shortest digits of the value for a decimal of few digits are its own**, without
    zeros at the end or with some. -/
theorem shortest_of_ofSize? (tie : Tie) (hn : n < digitsBound) (hs : s ≤ exactPlaces)
    (h : ofSize? (n / 10 ^ s) = some x) :
    ∃ k z : Nat, x.shortest tie = ⟨k, (z : Int) - s⟩ ∧ k * 10 ^ z = n := by
  unfold shortest
  have hlow : s < stepBits := by
    unfold stepBits
    unfold exactPlaces at hs
    omega
  have hsteps : (n : ℚ) / 10 ^ s * 10 ^ stepBits = ((n * 10 ^ (stepBits - s) : ℕ) : ℚ) := by
    have hpow : (10 : ℚ) ^ stepBits = 10 ^ s * 10 ^ (stepBits - s) := by
      rw [← pow_add]
      congr 1
      omega
    rw [hpow]
    push_cast
    field_simp
  have hread := reads_of_ofSize? (by positivity) hsteps h
  rcases Nat.eq_zero_or_pos n with rfl | hpos
  · have hzero : x.isZero = true := by
      obtain ⟨y, hy, hsize⟩ := exists_ofSize?_nat (n := 0) (by norm_num)
      simp only [Nat.cast_zero, zero_div] at h hy hsize
      obtain rfl : y = x := Option.some.inj (hy.symm.trans h)
      exact isZero_iff.2 hsize
    refine ⟨0, s, ?_, by rw [zero_mul]⟩
    rw [if_pos hzero, sub_self]
  · have hspacing := spacing_lt hn hs hread
    have hzero : x.isZero = false := by
      rw [Bool.eq_false_iff]
      intro hzero
      have hmant : x.mant = 0 := by simpa [isZero] using hzero
      have hnear := (near_of_reads hread).1
      rw [decimalSteps, hmant, zero_mul] at hnear
      have hone : 1 * 10 ^ (stepBits - s) ≤ n * 10 ^ (stepBits - s) :=
        Nat.mul_le_mul_right _ hpos
      omega
    obtain ⟨k, z, hfound, hk⟩ := exists_search_eq tie (by omega : 0 < stepBits - s)
      (le_top hpos hread hzero) hspacing hread
    refine ⟨k, z, ?_, hk⟩
    rw [if_neg (by simp [hzero]), hfound]
    congr 1
    omega

end Shortest

end PointOfSale.Binary64

/-
  PointOfSale/Proofs/Ledger/Amounts.lean
  ======================================
  **Amounts as numbers.**  An amount is stored as text, and every movement reads,
  rounds and writes it.  On cents none of this changes a number: taking subtracts
  and putting back adds, under the key of the movement and nowhere else.

  `Covers start taken amounts` is the balance that follows: under every key there
  is what there was at the start, less what the selections in `taken` consume.
-/
import PointOfSale.Proofs.Decimal.Cents
import PointOfSale.Proofs.Decimal.Printed
import PointOfSale.Proofs.Ledger.Run
import PointOfSale.Proofs.Table

namespace PointOfSale

/-- The number that is stored under a key. -/
def amountValue? (amounts : AmountTable) (key : String) : Option ℚ := do
  let entry ← amounts.get? key
  let amount ← entry.number.toOption
  return amount.value

theorem amountValue?_eq_some_iff {amounts : AmountTable} {key : String} {x : ℚ} :
    amountValue? amounts key = some x ↔ ∃ entry amount, amounts.get? key = some entry ∧
      entry.number = .ok amount ∧ amount.value = x := by
  simp [amountValue?, Option.bind_eq_some_iff, toOption_eq_some_iff]

theorem amountValue?_of_number {amounts : AmountTable} {key : String} {entry : Literal}
    {amount : Decimal} (hentry : amounts.get? key = some entry)
    (hamount : entry.number = .ok amount) : amountValue? amounts key = some amount.value :=
  amountValue?_eq_some_iff.2 ⟨entry, amount, hentry, hamount, rfl⟩

theorem amountValue?_insert (amounts : AmountTable) (written key : String) (d : Decimal) :
    amountValue? (amounts.insert written ⟨amountText d⟩) key =
      if key = written then some (roundMoney d).value else amountValue? amounts key := by
  by_cases hkey : key = written
  · subst hkey
    obtain ⟨e, he, hvalue⟩ := Literal.parse_amountText d
    rw [if_pos rfl, ← hvalue]
    exact amountValue?_of_number (Table.get?_insert_self _ _ _) he
  · simp [amountValue?, Table.get?_insert_of_ne _ _ hkey, hkey]

namespace Ledger

/-! ### One movement -/

theorem moveAmount_eq_ok_iff {op : Operation} {amounts moved : AmountTable} {m : Movement} :
    moveAmount op amounts m = .ok moved ↔
      ∃ entry available updated, amounts.get? m.key = some entry ∧
        entry.number = .ok available ∧ op.apply m.amount available = .ok updated ∧
        moved = amounts.insert m.key ⟨amountText (roundMoney updated)⟩ := by
  unfold moveAmount
  cases hentry : amounts.get? m.key with
  | none =>
    constructor
    · intro h
      cases h
    · rintro ⟨_, _, _, heq, -⟩
      cases heq
  | some entry =>
    simp only [pure_bind, bind_eq_ok_iff, pure_eq_ok_iff]
    constructor
    · rintro ⟨available, havailable, updated, hupdated, rfl⟩
      exact ⟨entry, available, updated, rfl, havailable, hupdated, rfl⟩
    · rintro ⟨_, available, updated, heq, havailable, hupdated, rfl⟩
      cases heq
      exact ⟨available, havailable, updated, hupdated, rfl⟩

/-- A movement whose result is a number of cents stores this number under its key. -/
theorem amountValue?_moveAmount {op : Operation} {amounts moved : AmountTable} {m : Movement}
    {x y : ℚ} (h : moveAmount op amounts m = .ok moved)
    (hx : amountValue? amounts m.key = some x) (hcents : IsCents y)
    (hy : ∀ available : Decimal, available.value = x →
      ∃ d, op.result? m.amount available = some d ∧ d.value = y) (key : String) :
    amountValue? moved key = if key = m.key then some y else amountValue? amounts key := by
  obtain ⟨entry, available, updated, hentry, havailable, hupdated, rfl⟩ := moveAmount_eq_ok_iff.1 h
  rw [amountValue?_of_number hentry havailable, Option.some.injEq] at hx
  obtain ⟨d, hd, hvalue⟩ := hy available hx
  have hsame : updated = d :=
    Option.some.inj ((Operation.apply_eq_ok_iff.1 hupdated).symm.trans hd)
  subst hsame
  have hround : (roundMoney updated).value = y := by
    rw [← hvalue] at hcents
    rw [value_roundMoney_of_isCents hcents, hvalue]
  have htwice : (roundMoney (roundMoney updated)).value = y := by
    rw [value_roundMoney_of_isCents (by rwa [hround]), hround]
  rw [amountValue?_insert, htwice]

end Ledger

/-! ### What selections consume -/

/-- What a selection consumes under a key. -/
def consumed (stock : Stock) (key : String) (s : Selection) : ℚ :=
  match Movement.ofSelection stock s with
  | .ok m => if m.key = key then m.amount.value else 0
  | .error _ => 0

def drawn (stock : Stock) (key : String) (taken : List Selection) : ℚ :=
  (taken.map (consumed stock key)).sum

@[simp] theorem drawn_nil (stock : Stock) (key : String) : drawn stock key [] = 0 := rfl

@[simp] theorem drawn_cons (stock : Stock) (key : String) (s : Selection)
    (taken : List Selection) :
    drawn stock key (s :: taken) = consumed stock key s + drawn stock key taken := by
  simp [drawn]

theorem drawn_perm {stock : Stock} {key : String} {a b : List Selection} (h : a.Perm b) :
    drawn stock key a = drawn stock key b :=
  (h.map _).sum_eq

theorem consumed_of_movement {stock : Stock} {s : Selection} {m : Movement}
    (h : Movement.ofSelection stock s = .ok m) (key : String) :
    consumed stock key s = if key = m.key then m.amount.value else 0 := by
  simp [consumed, h, eq_comm (a := key)]

/-! ### Stock in cents -/

def Stock.InCents (stock : Stock) : Prop :=
  ∀ key ∈ stock.amounts.keys, ∃ x ∈ amountValue? stock.amounts key, IsCents x

instance (stock : Stock) : Decidable stock.InCents :=
  inferInstanceAs (Decidable (∀ key ∈ _, _))

/-- What the selections consume is a number of cents for each of them. -/
def MovesCents (stock : Stock) (taken : List Selection) : Prop :=
  ∀ s ∈ taken, ∀ m, Movement.ofSelection stock s = .ok m → IsCents m.amount.value

instance (stock : Stock) (taken : List Selection) : Decidable (MovesCents stock taken) :=
  decidable_of_iff
    (∀ s ∈ taken, ∀ m ∈ (Movement.ofSelection stock s).toOption, IsCents m.amount.value) (by
      simp only [MovesCents, Option.mem_def, toOption_eq_some_iff])

/-- Under every key the running total is small enough for two places. -/
def SmallTotals (start : Stock) (taken : List Selection) : Prop :=
  ∀ key ∈ start.amounts.keys, ∀ x ∈ amountValue? start.amounts key,
    |x - drawn start key taken| < centsLimit

instance (start : Stock) (taken : List Selection) : Decidable (SmallTotals start taken) :=
  inferInstanceAs (Decidable (∀ key ∈ _, _))

theorem MovesCents.perm {stock : Stock} {a b : List Selection} (h : a.Perm b)
    (hcents : MovesCents stock a) : MovesCents stock b := by
  intro s hs
  exact hcents s (h.mem_iff.2 hs)

theorem SmallTotals.perm {start : Stock} {a b : List Selection} (h : a.Perm b)
    (hsmall : SmallTotals start a) : SmallTotals start b := by
  intro key hkey x hx
  rw [← drawn_perm h]
  exact hsmall key hkey x hx

theorem mem_keys_of_amountValue? {amounts : AmountTable} {key : String} {x : ℚ}
    (h : amountValue? amounts key = some x) : key ∈ amounts.keys := by
  rw [← Table.get?_isSome_iff]
  cases hentry : amounts.get? key with
  | none => simp [amountValue?, hentry] at h
  | some entry => rfl

theorem Stock.InCents.isCents {stock : Stock} (h : stock.InCents) {key : String} {x : ℚ}
    (hx : amountValue? stock.amounts key = some x) : IsCents x := by
  obtain ⟨y, hy, hcents⟩ := h key (mem_keys_of_amountValue? hx)
  rw [Option.mem_def, hx, Option.some.injEq] at hy
  rwa [hy]

theorem MovesCents.isCents_consumed {stock : Stock} {taken : List Selection}
    (h : MovesCents stock taken) {s : Selection} (hs : s ∈ taken) (key : String) :
    IsCents (consumed stock key s) := by
  unfold consumed
  split
  · rename_i m hm
    split
    · exact h s hs m hm
    · exact isCents_zero
  · exact isCents_zero

theorem isCents_drawn {stock : Stock} {taken : List Selection} (h : MovesCents stock taken)
    (key : String) : IsCents (drawn stock key taken) :=
  isCents_sum_map fun _ hs => h.isCents_consumed hs key

/-! ### The balance -/

/-- Every amount is what it was at the start, less what the selections consume. -/
def Covers (start : Stock) (taken : List Selection) (amounts : AmountTable) : Prop :=
  ∀ key, amountValue? amounts key =
    (amountValue? start.amounts key).map (· - drawn start key taken)

namespace Covers

variable {start : Stock} {before after taken : List Selection} {amounts moved : AmountTable}
  {s : Selection} {m : Movement} {op : Operation}

theorem perm (h : before.Perm after) (hcovers : Covers start before amounts) :
    Covers start after amounts := by
  intro key
  rw [hcovers key, drawn_perm h]

/-- A movement leads from one balance to another if its operation does so under its key,
    and nothing else is consumed under the other keys. -/
theorem move (hcovers : Covers start before amounts)
    (h : Ledger.moveAmount op amounts m = .ok moved) (hstart : start.InCents)
    (hcents : MovesCents start after) (hsmall : SmallTotals start after)
    (hother : ∀ key, key ≠ m.key → drawn start key after = drawn start key before)
    (hresult : ∀ (available : Decimal) (y : ℚ), IsCents y → |y| < centsLimit →
      y = available.value + drawn start m.key before - drawn start m.key after →
      ∃ d, op.result? m.amount available = some d ∧ d.value = y) :
    Covers start after moved := by
  obtain ⟨entry, available, -, hentry, havailable, -, -⟩ := Ledger.moveAmount_eq_ok_iff.1 h
  have hstored := amountValue?_of_number hentry havailable
  obtain ⟨x, hx, hvalue⟩ : ∃ x, amountValue? start.amounts m.key = some x ∧
      x - drawn start m.key before = available.value := by
    rw [hcovers m.key] at hstored
    exact Option.map_eq_some_iff.1 hstored
  have hy : IsCents (x - drawn start m.key after) :=
    (hstart.isCents hx).sub (isCents_drawn hcents m.key)
  have hlimit : |x - drawn start m.key after| < centsLimit :=
    hsmall m.key (mem_keys_of_amountValue? hx) x hx
  have hmoved := Ledger.amountValue?_moveAmount h hstored hy fun a ha =>
    hresult a _ hy hlimit (by rw [ha, ← hvalue]; ring)
  intro key
  rw [hmoved key]
  by_cases hkey : key = m.key
  · rw [if_pos hkey, hkey, hx, Option.map_some]
  · rw [if_neg hkey, hcovers key, hother key hkey]

theorem take (hcovers : Covers start taken amounts)
    (hm : Movement.ofSelection start s = .ok m)
    (h : Ledger.moveAmount Operation.take amounts m = .ok moved) (hstart : start.InCents)
    (hcents : MovesCents start (s :: taken)) (hsmall : SmallTotals start (s :: taken)) :
    Covers start (s :: taken) moved := by
  refine hcovers.move h hstart hcents hsmall ?_ ?_
  · intro key hkey
    rw [drawn_cons, consumed_of_movement hm, if_neg hkey, zero_add]
  · intro available y hy hlimit hvalue
    have hdiff : available.value - m.amount.value = y := by
      rw [hvalue, drawn_cons, consumed_of_movement hm, if_pos rfl]
      ring
    rw [← hdiff] at hy hlimit ⊢
    exact Decimal.sub?_of_isCents hy hlimit

theorem putBack (hcovers : Covers start (s :: taken) amounts)
    (hm : Movement.ofSelection start s = .ok m)
    (h : Ledger.moveAmount Operation.putBack amounts m = .ok moved) (hstart : start.InCents)
    (hcents : MovesCents start taken) (hsmall : SmallTotals start taken) :
    Covers start taken moved := by
  refine hcovers.move h hstart hcents hsmall ?_ ?_
  · intro key hkey
    rw [drawn_cons, consumed_of_movement hm, if_neg hkey, zero_add]
  · intro available y hy hlimit hvalue
    have hsum : available.value + m.amount.value = y := by
      rw [hvalue, drawn_cons, consumed_of_movement hm, if_pos rfl]
      ring
    rw [← hsum] at hy hlimit ⊢
    exact Decimal.add?_of_isCents hy hlimit

end Covers

/-! ### Runs of the ledger for one selection -/

namespace Ledger

variable {ledger : Ledger} {start stock : Stock} {s : Selection} {taken : List Selection}
  {o : LedgerOutcome}

theorem amounts_of_evaluate {op : Operation} (htracked : stock.isTracked = true)
    (h : ledger.evaluate stock [s] op = .ok o) :
    ∃ m, Movement.ofSelection stock s = .ok m ∧
      moveAmount op stock.amounts m = .ok o.stock.amounts := by
  rw [evaluate_singleton ledger s op htracked, map_eq_ok_iff] at h
  obtain ⟨moved, hmove, rfl⟩ := h
  obtain ⟨m, amounts, hm, hamounts, rfl⟩ := move_eq_ok_iff.1 hmove
  exact ⟨m, hm, hamounts⟩

theorem covers_of_take (hrules : start.SameRules stock) (htracked : start.isTracked = true)
    (hcovers : Covers start taken stock.amounts)
    (h : ledger.evaluate stock [s] Operation.take = .ok o) (hstart : start.InCents)
    (hcents : MovesCents start (s :: taken)) (hsmall : SmallTotals start (s :: taken)) :
    Covers start (s :: taken) o.stock.amounts := by
  obtain ⟨m, hm, hmoved⟩ := amounts_of_evaluate (hrules.isTracked.trans htracked) h
  rw [Movement.ofSelection_of_sameRules hrules] at hm
  exact hcovers.take hm hmoved hstart hcents hsmall

theorem covers_of_putBack (hrules : start.SameRules stock) (htracked : start.isTracked = true)
    (hcovers : Covers start (s :: taken) stock.amounts)
    (h : ledger.evaluate stock [s] Operation.putBack = .ok o) (hstart : start.InCents)
    (hcents : MovesCents start taken) (hsmall : SmallTotals start taken) :
    Covers start taken o.stock.amounts := by
  obtain ⟨m, hm, hmoved⟩ := amounts_of_evaluate (hrules.isTracked.trans htracked) h
  rw [Movement.ofSelection_of_sameRules hrules] at hm
  exact hcovers.putBack hm hmoved hstart hcents hsmall

end Ledger

end PointOfSale

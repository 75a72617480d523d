/-
  PointOfSale/Proofs/Ledger/Reordering.lean
  =========================================
  **The order of selections does not matter for stock in cents.**  Between any two
  selections an amount is read, moved, rounded and written.  While everything is in cents
  and small this is exact: under every key there stands what was there at the start, moved
  by the sum of what the selections so far move there (`Stands`).  A sum knows no order;
  and a selection succeeds anywhere in a run if it does at the start (`Movable`), since a
  run neither makes an amount readable nor makes it unreadable.  That the texts agree too
  is the bookkeeping of `Booked`: moved amounts have the one text of their number.
-/
import PointOfSale.Proofs.Ledger.Bookkeeping
import PointOfSale.Proofs.Pricing.Exactness

namespace PointOfSale

/-! ### Operations on amounts -/

namespace Operation

/-- Stock is taken or put back. -/
def IsMove (op : Operation) : Prop := op = take ∨ op = putBack

namespace IsMove

variable {op : Operation} {x a b : ℚ}

theorem exact_zero (h : op.IsMove) : op.exact 0 x = x := by
  rcases h with rfl | rfl
  · exact sub_zero x
  · exact add_zero x

/-- One move after another is the move by the sum. -/
theorem exact_exact (h : op.IsMove) : op.exact b (op.exact a x) = op.exact (a + b) x := by
  rcases h with rfl | rfl
  · exact sub_sub x a b
  · exact add_assoc x a b

theorem isCents_exact (h : op.IsMove) (ha : IsCents a) (hx : IsCents x) :
    IsCents (op.exact a x) := by
  rcases h with rfl | rfl
  · exact hx.sub ha
  · exact hx.add ha

theorem abs_exact_le (h : op.IsMove) : |op.exact a x| ≤ |x| + |a| := by
  rcases h with rfl | rfl
  · exact abs_sub x a
  · exact abs_add_le x a

end IsMove

end Operation

/-! ### Stock and movements in cents -/

/-- What a selection moves; nothing where that is not computed. -/
def movedBy (stock : Stock) (s : Selection) : ℚ :=
  match Movement.ofSelection stock s with
  | .ok m => m.amount.value
  | .error _ => 0

theorem abs_consumed_le (stock : Stock) (key : String) (s : Selection) :
    |consumed stock key s| ≤ |movedBy stock s| := by
  unfold consumed movedBy
  cases Movement.ofSelection stock s with
  | ok m =>
    by_cases hkey : m.key = key
    · simp [hkey]
    · simp [hkey]
  | error e => simp

/-- The number under a key; nothing where there is none. -/
def storedUnder (amounts : AmountTable) (key : String) : ℚ := (amountValue? amounts key).getD 0

/-- Whatever is a number, among the amounts and the movements, is one of cents, and all of
    them together are small enough for two places. -/
structure WithinCents (stock : Stock) (selections : List Selection) : Prop where
  moves : MovesCents stock selections
  stored : ∀ key ∈ stock.amounts.keys, ∀ x ∈ amountValue? stock.amounts key, IsCents x
  total : (stock.amounts.keys.map (|storedUnder stock.amounts ·|)).sum +
    (selections.map (|movedBy stock ·|)).sum < centsLimit

namespace WithinCents

variable {stock : Stock} {selections other part : List Selection} {op : Operation}
  {key : String} {x : ℚ}

theorem perm (h : WithinCents stock selections) (hperm : other.Perm selections) :
    WithinCents stock other where
  moves := h.moves.perm hperm.symm
  stored := h.stored
  total := by
    rw [(hperm.map _).sum_eq]
    exact h.total

theorem sublist (h : WithinCents stock selections) (hpart : part.Sublist selections) :
    WithinCents stock part where
  moves s hs := h.moves s (hpart.subset hs)
  stored := h.stored
  total := by
    have hmono := sum_map_abs_mono (movedBy stock) hpart
    linarith [h.total]

theorem abs_drawn_le (stock : Stock) (key : String) (selections : List Selection) :
    |drawn stock key selections| ≤ (selections.map (|movedBy stock ·|)).sum := by
  calc |drawn stock key selections| ≤ (selections.map (|consumed stock key ·|)).sum :=
        abs_sum_map_le (consumed stock key) (List.Sublist.refl _)
    _ ≤ (selections.map (|movedBy stock ·|)).sum :=
        List.sum_le_sum fun s _ => abs_consumed_le stock key s

theorem abs_le_stored (hx : amountValue? stock.amounts key = some x) :
    |x| ≤ (stock.amounts.keys.map (|storedUnder stock.amounts ·|)).sum := by
  have hkey : [key].Sublist stock.amounts.keys :=
    List.singleton_sublist.2 (mem_keys_of_amountValue? hx)
  have hone := abs_sum_map_le (storedUnder stock.amounts) hkey
  rwa [List.map_singleton, List.sum_singleton, storedUnder, hx, Option.getD_some] at hone

/-- An amount that all the selections have moved is a number of cents and small enough. -/
theorem exact_drawn (h : WithinCents stock selections) (hop : op.IsMove)
    (hx : amountValue? stock.amounts key = some x) :
    IsCents (op.exact (drawn stock key selections) x) ∧
      |op.exact (drawn stock key selections) x| < centsLimit := by
  constructor
  · have hcents := h.stored key (mem_keys_of_amountValue? hx) x hx
    exact hop.isCents_exact (isCents_drawn h.moves key) hcents
  · calc |op.exact (drawn stock key selections) x| ≤ |x| + |drawn stock key selections| :=
          hop.abs_exact_le
      _ ≤ (stock.amounts.keys.map (|storedUnder stock.amounts ·|)).sum +
            (selections.map (|movedBy stock ·|)).sum :=
          add_le_add (abs_le_stored hx) (abs_drawn_le stock key selections)
      _ < centsLimit := h.total

end WithinCents

/-! ### What stands under the keys -/

theorem drawn_concat (stock : Stock) (key : String) (taken : List Selection) (s : Selection) :
    drawn stock key (taken ++ [s]) = drawn stock key taken + consumed stock key s := by
  simp [drawn]

namespace Ledger

/-- The stock in a run: the rules of the beginning, and every amount moved by what the
    selections so far move there. -/
structure Stands (op : Operation) (stock : Stock) (taken : List Selection) (current : Stock) :
    Prop where
  rules : stock.SameRules current
  values : ∀ key, amountValue? current.amounts key =
    (amountValue? stock.amounts key).map (op.exact (drawn stock key taken))

/-- A selection whose movement is computed and whose amount is a number. -/
def Movable (stock : Stock) (s : Selection) : Prop :=
  ∃ m x, Movement.ofSelection stock s = .ok m ∧ amountValue? stock.amounts m.key = some x

variable {ledger : Ledger} {op : Operation} {stock : Stock} {s : Selection}
  {taken other selections : List Selection} {o next : LedgerOutcome}
  {amounts moved : AmountTable} {m : Movement} {x : ℚ}

/-- A move of stock under a key with a number, to a small number of cents. -/
theorem exists_moveAmount (hx : amountValue? amounts m.key = some x)
    (hcents : IsCents (op.exact m.amount.value x))
    (hlimit : |op.exact m.amount.value x| < centsLimit) :
    ∃ moved, moveAmount op amounts m = .ok moved ∧ ∀ key, amountValue? moved key =
      if key = m.key then some (op.exact m.amount.value x) else amountValue? amounts key := by
  have hresult : ∀ available : Decimal, available.value = x →
      ∃ d, op.result? m.amount available = some d ∧ d.value = op.exact m.amount.value x := by
    rintro available rfl
    exact (op.gives_result? m.amount available).exists_of_isCents hcents
      (le_three_centsLimit hlimit)
  obtain ⟨entry, available, hentry, havailable, hvalue⟩ := amountValue?_eq_some_iff.1 hx
  obtain ⟨updated, hupdated, -⟩ := hresult available hvalue
  have hmoved : moveAmount op amounts m =
      .ok (amounts.insert m.key ⟨amountText (roundMoney updated)⟩) :=
    moveAmount_eq_ok_iff.2
      ⟨entry, available, updated, hentry, havailable, Operation.apply_eq_ok_iff.2 hupdated, rfl⟩
  exact ⟨_, hmoved, amountValue?_moveAmount hmoved hx hcents hresult⟩

/-! ### One selection -/

theorem Stands.start (hop : op.IsMove) : Stands op stock [] stock where
  rules := .refl stock
  values key := by
    cases amountValue? stock.amounts key with
    | none => rfl
    | some x => rw [Option.map_some, drawn_nil, hop.exact_zero]

/-- A selection that is movable at the beginning is so wherever it comes. -/
theorem Stands.exists_step (ledger : Ledger) (h : Stands op stock taken o.stock) (hop : op.IsMove)
    (hcents : WithinCents stock (taken ++ [s])) (hs : Movable stock s) :
    ∃ next, ledger.step op o s = .ok next ∧ Stands op stock (taken ++ [s]) next.stock := by
  obtain ⟨m, x, hm, hx⟩ := hs
  have hstored : amountValue? o.stock.amounts m.key =
      some (op.exact (drawn stock m.key taken) x) := by
    rw [h.values, hx, Option.map_some]
  have hexact : op.exact m.amount.value (op.exact (drawn stock m.key taken) x) =
      op.exact (drawn stock m.key (taken ++ [s])) x := by
    rw [hop.exact_exact, drawn_concat, consumed_of_movement hm, if_pos rfl]
  obtain ⟨hheld, hlimit⟩ := hcents.exact_drawn hop hx
  rw [← hexact] at hheld hlimit
  obtain ⟨moved, hmoved, hvalues⟩ := exists_moveAmount hstored hheld hlimit
  have hmove : move op o.stock s = .ok (o.stock.withAmounts moved) := by
    rw [move_eq_ok_iff]
    exact ⟨m, moved, (Movement.ofSelection_of_sameRules h.rules s).trans hm, hmoved, rfl⟩
  refine ⟨_, step_eq_ok_iff.2 ⟨_, hmove, rfl⟩, h.rules.trans ⟨moved, rfl⟩, ?_⟩
  intro key
  rw [Stock.amounts_withAmounts, hvalues key]
  by_cases hkey : key = m.key
  · rw [if_pos hkey, hkey, hx, Option.map_some, hexact]
  · -- nothing is moved under the other keys
    rw [if_neg hkey, h.values, drawn_concat, consumed_of_movement hm, if_neg hkey, add_zero]

/-- No other selection is moved: what is not a number at the beginning never becomes one. -/
theorem Stands.movable (h : Stands op stock taken o.stock)
    (hstep : ledger.step op o s = .ok next) : Movable stock s := by
  obtain ⟨moved, hmove, -⟩ := step_eq_ok_iff.1 hstep
  obtain ⟨m, amounts, hm, hamounts, -⟩ := move_eq_ok_iff.1 hmove
  obtain ⟨entry, available, -, hentry, havailable, -, -⟩ := moveAmount_eq_ok_iff.1 hamounts
  have hstored := amountValue?_of_number hentry havailable
  rw [h.values, Option.map_eq_some_iff] at hstored
  obtain ⟨x, hx, -⟩ := hstored
  rw [Movement.ofSelection_of_sameRules h.rules] at hm
  exact ⟨m, x, hm, hx⟩

theorem Stands.step (h : Stands op stock taken o.stock) (hop : op.IsMove)
    (hcents : WithinCents stock (taken ++ [s])) (hstep : ledger.step op o s = .ok next) :
    Stands op stock (taken ++ [s]) next.stock := by
  obtain ⟨stood, hstood, hstands⟩ := h.exists_step ledger hop hcents (h.movable hstep)
  cases hstep.symm.trans hstood
  exact hstands

/-! ### Runs -/

theorem stands_of_evaluate (htracked : stock.isTracked = true) (hop : op.IsMove)
    (hcents : WithinCents stock selections)
    (h : ledger.evaluate stock selections op = .ok o) :
    (∀ s ∈ selections, Movable stock s) ∧ Stands op stock selections o.stock := by
  rw [evaluate_of_tracked ledger selections op htracked] at h
  refine foldlM_prefix_induction
    (fun taken o => (∀ s ∈ taken, Movable stock s) ∧ Stands op stock taken o.stock)
    ⟨List.forall_mem_nil _, .start hop⟩ ?_ h
  rintro taken s current next hpart ⟨hmovable, hstands⟩ hstep
  constructor
  · intro t ht
    rcases List.mem_append.1 ht with ht | ht
    · exact hmovable t ht
    · rw [List.mem_singleton.1 ht]
      exact hstands.movable hstep
  · exact hstands.step hop (hcents.sublist hpart.sublist) hstep

/-- Whether a run succeeds is a matter of each selection at the beginning. -/
theorem exists_evaluate_iff (htracked : stock.isTracked = true) (hop : op.IsMove)
    (hcents : WithinCents stock selections) :
    (∃ o, ledger.evaluate stock selections op = .ok o) ↔ ∀ s ∈ selections, Movable stock s := by
  constructor
  · rintro ⟨o, h⟩
    exact (stands_of_evaluate htracked hop hcents h).1
  · intro hall
    rw [evaluate_of_tracked ledger selections op htracked]
    have hrun : ∃ o, selections.foldlM (ledger.step op) ⟨stock, ∅⟩ = .ok o ∧
        Stands op stock selections o.stock := by
      apply exists_foldlM fun taken (o : LedgerOutcome) => Stands op stock taken o.stock
      · exact .start hop
      · intro taken s current hpart hstands
        have hs : s ∈ selections := hpart.subset (by simp)
        exact hstands.exists_step ledger hop (hcents.sublist hpart.sublist) (hall s hs)
    obtain ⟨o, ho, -⟩ := hrun
    exact ⟨o, ho⟩

/-! ### Runs over the same selections -/

/-- The text of an amount is known by its number. -/
theorem literal_eq_of_value_eq {a b : AmountTable} {key : String} {l l' : Literal}
    (ha : a.get? key = some l) (hb : b.get? key = some l') (htext : IsAmountText l.text)
    (htext' : IsAmountText l'.text) (hvalue : amountValue? a key = amountValue? b key) :
    l = l' := by
  obtain ⟨d, hd, hsteady⟩ := map_eq_ok_iff.1 htext.steady
  obtain ⟨d', hd', hsteady'⟩ := map_eq_ok_iff.1 htext'.steady
  rw [amountValue?_of_number ha hd, amountValue?_of_number hb hd', Option.some.injEq] at hvalue
  have hround : (roundMoney d).value = (roundMoney d').value := by
    rw [value_roundMoney, value_roundMoney, hvalue]
  have hsame : l.text = l'.text := by
    rw [← hsteady, ← hsteady', amountText_eq_of_value_eq hround]
  cases l
  cases l'
  cases hsame
  rfl

theorem stock_eq_of_perm {a b : LedgerOutcome} (hperm : other.Perm taken)
    (ha : Stands op stock taken a.stock) (hb : Stands op stock other b.stock)
    (hbooked : Booked ledger stock taken a) (hbooked' : Booked ledger stock other b) :
    b.stock = a.stock := by
  have hvalues : ∀ key, amountValue? b.stock.amounts key = amountValue? a.stock.amounts key := by
    intro key
    rw [ha.values, hb.values, drawn_perm hperm]
  have hamounts : b.stock.amounts = a.stock.amounts := by
    apply Table.ext_get?
    intro key
    by_cases hkey : ∃ s ∈ taken, ∃ m, Movement.ofSelection stock s = .ok m ∧ m.key = key
    · obtain ⟨s, hs, m, hm, rfl⟩ := hkey
      obtain ⟨m₁, l, hm₁, hl, htext⟩ := hbooked.moved s hs
      obtain ⟨m₂, l', hm₂, hl', htext'⟩ := hbooked'.moved s (hperm.mem_iff.2 hs)
      cases hm.symm.trans hm₁
      cases hm.symm.trans hm₂
      rw [hl, hl', literal_eq_of_value_eq hl' hl htext' htext (hvalues m.key)]
    · -- no selection moves anything under this key
      have hnone : ∀ s ∈ taken, ∀ m, Movement.ofSelection stock s = .ok m → m.key ≠ key := by
        intro s hs m hm heq
        exact hkey ⟨s, hs, m, hm, heq⟩
      have hnone' : ∀ s ∈ other, ∀ m, Movement.ofSelection stock s = .ok m → m.key ≠ key := by
        intro s hs
        exact hnone s (hperm.mem_iff.1 hs)
      rw [hbooked.untouched key hnone, hbooked'.untouched key hnone']
  rw [← hb.rules.withAmounts_amounts, hamounts, ha.rules.withAmounts_amounts]

/-- **The order of selections does not matter.**  A run over stock in cents succeeds if and
    only if it does so in any other order, and it leaves the same stock. -/
theorem evaluate_perm (ledger : Ledger) (htracked : stock.isTracked = true) (hop : op.IsMove)
    (hcents : WithinCents stock selections) (hperm : other.Perm selections) :
    ((∃ o, ledger.evaluate stock other op = .ok o) ↔
        ∃ o, ledger.evaluate stock selections op = .ok o) ∧
      ∀ o o', ledger.evaluate stock selections op = .ok o →
        ledger.evaluate stock other op = .ok o' → o'.stock = o.stock := by
  have hcents' := hcents.perm hperm
  constructor
  · rw [exists_evaluate_iff htracked hop hcents', exists_evaluate_iff htracked hop hcents]
    simp only [hperm.mem_iff]
  · intro o o' h h'
    obtain ⟨-, hstands⟩ := stands_of_evaluate htracked hop hcents h
    obtain ⟨-, hstands'⟩ := stands_of_evaluate htracked hop hcents' h'
    rw [evaluate_of_tracked ledger _ op htracked] at h h'
    exact stock_eq_of_perm hperm hstands hstands' ((Booked.start ledger stock).run h)
      ((Booked.start ledger stock).run h')

end Ledger

namespace Sample

/-- Stock by flavor; nobody has counted the mint. -/
def gelateria : Stock :=
  { isTracked := true
    dependsOn :=
      { name := "Flavor"
        amounts := .ofList [("Mocha", ⟨"8"⟩), ("Vanilla", ⟨" 5.50 "⟩), ("Mint", ⟨"a few"⟩)] }
    decrementer := "Amount" }

def scoop (flavor amount : String) : Selection :=
  { itemId := .nil, choices := [⟨"Flavor", ⟨flavor⟩⟩, ⟨"Amount", ⟨amount⟩⟩] }

def sundae : List Selection :=
  [scoop "Mocha" "0.12", scoop "Vanilla" "(3 / 2)", scoop "Mocha" "2.250"]

end Sample

/-- The second scoop of mocha may come first, and the vanilla after or before it. -/
theorem sundae_reversed :
    Sample.gelateria.isTracked = true ∧ Operation.take.IsMove ∧
    WithinCents Sample.gelateria Sample.sundae ∧ Sample.sundae.reverse.Perm Sample.sundae ∧
    ∃ o, ({} : Ledger).evaluate Sample.gelateria Sample.sundae.reverse Operation.take = .ok o ∧
      o.stock.amounts =
        .ofList [("Mocha", ⟨"5.63"⟩), ("Vanilla", ⟨"4.0"⟩), ("Mint", ⟨"a few"⟩)] := by
  have hop : Operation.take.IsMove := .inl rfl
  have hcents : WithinCents Sample.gelateria Sample.sundae :=
    ⟨by decide +kernel, by decide +kernel, by decide +kernel⟩
  have hperm : Sample.sundae.reverse.Perm Sample.sundae := List.reverse_perm _
  have hrun : ∃ o, ({} : Ledger).evaluate Sample.gelateria Sample.sundae Operation.take = .ok o ∧
      o.stock.amounts =
        .ofList [("Mocha", ⟨"5.63"⟩), ("Vanilla", ⟨"4.0"⟩), ("Mint", ⟨"a few"⟩)] :=
    ⟨_, rfl, by decide +kernel⟩
  obtain ⟨o, ho, hamounts⟩ := hrun
  obtain ⟨hsucceeds, hstock⟩ := Ledger.evaluate_perm {} rfl hop hcents hperm
  obtain ⟨o', ho'⟩ := hsucceeds.2 ⟨o, ho⟩
  refine ⟨rfl, hop, hcents, hperm, o', ho', ?_⟩
  rw [hstock o o' ho ho', hamounts]

end PointOfSale

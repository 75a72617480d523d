/-
  PointOfSale/Proofs/Order/Undoing.lean
  =====================================
  **What the removal of an order line gives back.**  An order is taken and put back
  on amounts that are kept to two places, so what comes back is what was there only
  where the two roundings agree (`Restored`).  Every other amount comes back in any
  case, and the removal never fails (`delete_restores`).
-/
import PointOfSale.Proofs.Decimal.Restoring
import PointOfSale.Proofs.Ledger.Amounts
import PointOfSale.Proofs.Order.Execution
import PointOfSale.Proofs.Order.Request

namespace PointOfSale

/-- Every stored amount is smaller than a limit. -/
def Stock.AmountsBelow (limit : ℚ) (stock : Stock) : Prop :=
  ∀ key ∈ stock.amounts.keys, ∀ x ∈ amountValue? stock.amounts key, |x| < limit

instance (limit : ℚ) (stock : Stock) : Decidable (stock.AmountsBelow limit) :=
  inferInstanceAs (Decidable (∀ key ∈ _, _))

namespace Ledger

/-! ### One movement and its reverse -/

/-- What a movement took is put back: the amount comes back as two roundings leave it, and
    nothing else is touched. -/
theorem moveAmount_restores {amounts taken : AmountTable} {m : Movement} {x : ℚ}
    (hx : amountValue? amounts m.key = some x) (hcents : IsCents x) (hlimit : |x| < amountLimit)
    (hconsumed : |m.amount.value| < 3 * amountLimit)
    (h : moveAmount Operation.take amounts m = .ok taken) :
    ∃ back z, moveAmount Operation.putBack taken m = .ok back ∧
      (∀ key, key ≠ m.key → back.get? key = amounts.get? key) ∧
      amountValue? back m.key = some z ∧ Restored x m.amount.value z := by
  obtain ⟨entry, available, u, hentry, havailable, htaken, rfl⟩ := moveAmount_eq_ok_iff.1 h
  rw [amountValue?_of_number hentry havailable, Option.some.injEq] at hx
  subst hx
  rw [Operation.apply_eq_ok_iff] at htaken
  obtain ⟨_, hsub, hu, huExact⟩ := Decimal.sub?_of_limits hcents hlimit hconsumed
  obtain rfl := Option.some.inj (htaken.symm.trans hsub)
  -- the text that was written denotes the rounded difference
  obtain ⟨left, hleft, hleftText⟩ := Literal.parse_amountText (roundMoney u)
  have hleftValue : left.value = halfEven (u.value * 100) / 100 := by
    rw [hleftText, value_roundMoney_of_isCents (isCents_roundMoney u), value_roundMoney]
  have hleftCents : IsCents left.value := by
    rw [hleftText]
    exact isCents_roundMoney _
  have hback : |left.value + m.amount.value - available.value| ≤ 1 / 100 := by
    have hround := abs_le.1 (nearestEven_halfEven (u.value * 100)).abs_sub_le
    have hdiff := abs_le.1 hu
    rw [hleftValue, abs_le]
    constructor <;> linarith
  obtain ⟨v, hadd, hv, hvExact⟩ := Decimal.add?_of_limits hleftCents hlimit hback
  rw [hleftValue] at hv hvExact
  refine ⟨_, halfEven (v.value * 100) / 100, moveAmount_eq_ok_iff.2 ⟨_, left, v,
    Table.get?_insert_self _ _ _, hleft, Operation.apply_eq_ok_iff.2 hadd, rfl⟩, ?_, ?_, ?_⟩
  · intro key hkey
    rw [Table.get?_insert_of_ne _ _ hkey, Table.get?_insert_of_ne _ _ hkey]
  · rw [amountValue?_insert, if_pos rfl, value_roundMoney_of_isCents (isCents_roundMoney v),
      value_roundMoney]
  · exact restored_of_sums hcents hu hv fun hfit => ⟨huExact hfit, hvExact hfit⟩

/-- A run of the ledger for one selection is put back by a run for the same selection. -/
theorem evaluate_restores {ledger : Ledger} {stock : Stock} {s : Selection} {o : LedgerOutcome}
    {m : Movement} (htracked : stock.isTracked = true) (hcents : stock.InCents)
    (hlimit : stock.AmountsBelow amountLimit) (hm : Movement.ofSelection stock s = .ok m)
    (hconsumed : |m.amount.value| < 3 * amountLimit)
    (h : ledger.evaluate stock [s] Operation.take = .ok o) :
    ∃ r, ledger.evaluate o.stock [s] Operation.putBack = .ok r ∧
      (∀ key, key ≠ m.key → r.stock.amounts.get? key = stock.amounts.get? key) ∧
      ∃ x z, amountValue? stock.amounts m.key = some x ∧
        amountValue? r.stock.amounts m.key = some z ∧ Restored x m.amount.value z := by
  have hrules := sameRules_of_evaluate h
  obtain ⟨taken, htaken, hmoved⟩ := amounts_of_evaluate htracked h
  obtain rfl : m = taken := Except.ok.inj (hm.symm.trans htaken)
  obtain ⟨entry, available, -, hentry, havailable, -, -⟩ := moveAmount_eq_ok_iff.1 hmoved
  have hx := amountValue?_of_number hentry havailable
  have hbelow := hlimit m.key (mem_keys_of_amountValue? hx) _ hx
  obtain ⟨amounts, z, hback, hothers, hz, hrestored⟩ :=
    moveAmount_restores hx (hcents.isCents hx) hbelow hconsumed hmoved
  have hmove : move Operation.putBack o.stock s = .ok (o.stock.withAmounts amounts) :=
    move_eq_ok_iff.2
      ⟨m, amounts, (Movement.ofSelection_of_sameRules hrules s).trans hm, hback, rfl⟩
  rw [evaluate_singleton ledger s _ (hrules.isTracked.trans htracked), hmove]
  exact ⟨_, rfl, hothers, _, z, hx, hz, hrestored⟩

end Ledger

/-! ### Removing a line that was just created -/

/-- **The removal of a new order line.**  It succeeds, and every amount but the one that the
    line took is as it was before.  That one differs by a cent at most; it is the same number
    if what was taken is not close to a half cent, and also if all its digits fit, unless it
    is half a cent and the amount was an odd number of cents. -/
theorem delete_restores {desk : Desk} {store taken : ItemStore} {item : Item} {s : Selection}
    {fresh : Uuid} {now : Timestamp} {line : OrderLine} {m : Movement}
    (hitem : store.get? s.itemId = some item) (htracked : item.stock.isTracked = true)
    (hcents : item.stock.InCents) (hlimit : item.stock.AmountsBelow amountLimit)
    (hcreate : (desk.create s fresh now).run store = .ok (line, taken))
    (hm : Movement.ofSelection item.stock s = .ok m)
    (hconsumed : |m.amount.value| < 3 * amountLimit) :
    ∃ o after back, (desk.delete line).run taken = .ok (o, after) ∧
      after.get? s.itemId = some back ∧
      (∀ key, key ≠ m.key → back.stock.amounts.get? key = item.stock.amounts.get? key) ∧
      ∃ x z, amountValue? item.stock.amounts m.key = some x ∧
        amountValue? back.stock.amounts m.key = some z ∧ Restored x m.amount.value z := by
  obtain ⟨current, stock, hcurrent, hevaluate, rfl⟩ := Call.run_eq_ok_iff.1 hcreate
  obtain rfl : item = current := Option.some.inj (hitem.symm.trans hcurrent)
  obtain ⟨quote, o, -, ho, hline, rfl⟩ := Desk.create_eq_ok_iff.1 hevaluate
  have hid : item.id = s.itemId := ItemStore.id_of_get? hitem
  have hselection : line.selection = s.withId (s.id.getD fresh) := by
    rw [hline, OrderLine.selection_ofSelection _ _ _ hid]
  obtain ⟨returned, hreturned, hothers, hamount⟩ :=
    Ledger.evaluate_restores (s := s.withId (s.id.getD fresh)) htracked hcents hlimit hm
      hconsumed ho
  -- the removal finds what the creation has left
  have htaken : ((desk.create s fresh now).written store item o.stock).get? s.itemId =
      some (item.written o.stock) := Call.get?_written_self o.stock rfl hitem
  have hfound : ((desk.create s fresh now).written store item o.stock).get? line.itemId =
      some (item.written o.stock) := by
    rw [hline, ← htaken]
    exact congrArg _ hid
  have hstock := Item.stock_written_of_tracked o.stock htracked
  have hdelete : (desk.delete line).evaluate (item.written o.stock) =
      .ok (returned, returned.stock) := by
    rw [Desk.delete_eq_ok_iff, hstock, hselection]
    exact ⟨hreturned, rfl⟩
  have hreturnedTracked : (item.written o.stock).stock.isTracked = true := by
    rw [hstock, (Ledger.sameRules_of_evaluate ho).isTracked, htracked]
  refine ⟨returned, _, (item.written o.stock).written returned.stock,
    Call.run_eq_ok_iff.2 ⟨_, _, hfound, hdelete, rfl⟩,
    Call.get?_written_self _ rfl htaken, ?_⟩
  rw [Item.stock_written_of_tracked _ hreturnedTracked]
  exact ⟨hothers, hamount⟩

/-- An eighth of a scoop from an even number of cents comes back, and the mocha was never
    touched. -/
theorem delete_eighth_restores :
    ∃ line taken o after back,
      (({} : Desk).create (Sample.portion "Vanilla" "0.125") .nil .epoch).run Sample.shop =
        .ok (line, taken) ∧
      (({} : Desk).delete line).run taken = .ok (o, after) ∧
      after.get? Sample.iceCream.id = some back ∧
      amountValue? back.stock.amounts "Vanilla" = some 12.5 ∧
      back.stock.amounts.get? "Mocha" = some ⟨"6"⟩ := by
  obtain ⟨m, hm, hkey, hvalue⟩ : ∃ m,
      Movement.ofSelection Sample.iceCream.stock (Sample.portion "Vanilla" "0.125") = .ok m ∧
        m.key = "Vanilla" ∧ m.amount.value = 0.125 :=
    ⟨_, rfl, by decide +kernel, by decide +kernel⟩
  have hok : ((({} : Desk).create (Sample.portion "Vanilla" "0.125") .nil .epoch).run
      Sample.shop).toOption.isSome := by
    decide +kernel
  rcases hcreate : (({} : Desk).create (Sample.portion "Vanilla" "0.125") .nil .epoch).run
    Sample.shop with fault | ⟨line, taken⟩
  · rw [hcreate] at hok
    cases hok
  · have hitem : Sample.shop.get? (Sample.portion "Vanilla" "0.125").itemId =
        some Sample.iceCream := by decide
    obtain ⟨o, after, back, hdelete, hback, hothers, x, z, hx, hz, hrestored⟩ :=
      delete_restores hitem (by decide) (by decide +kernel) (by decide +kernel) hcreate hm
        (by rw [hvalue]; norm_num [amountLimit])
    have hbefore : amountValue? Sample.iceCream.stock.amounts "Vanilla" = some 12.5 := by
      decide +kernel
    rw [hkey] at hothers hx hz
    obtain rfl : x = 12.5 := Option.some.inj (hx.symm.trans hbefore)
    rw [hvalue] at hrestored
    have hfit : DigitsFit 12.5 0.125 := by
      refine ⟨3, by decide, by decide, by norm_num, ?_⟩
      norm_num [Decimal.bound]
    have heven : IsEvenCents 12.5 := by norm_num [IsEvenCents]
    obtain rfl : z = 12.5 := (hrestored.tie hfit).2 fun _ => heven
    exact ⟨line, taken, o, after, back, rfl, hdelete, hback, hz,
      (hothers "Mocha" (by decide)).trans (by decide +kernel)⟩

namespace Sample

/-- A shop with one kind of ice cream, and so much of it. -/
def parlor (vanilla : String) : ItemStore :=
  .ofList [{ iceCream with
    stock := iceCream.stock.withAmounts (.ofList [("Vanilla", ⟨vanilla⟩)]) }]

def vanillaIn (store : ItemStore) : Option ℚ := do
  let item ← store.get? iceCream.id
  amountValue? item.stock.amounts "Vanilla"

/-- The store after a portion was ordered and removed again. -/
def afterRemoval (store : ItemStore) (amount : String) : Option ItemStore := do
  let (line, taken) ← ((({} : Desk).create (portion "Vanilla" amount) .nil .epoch).run
    store).toOption
  let (_, after) ← ((({} : Desk).delete line).run taken).toOption
  return after

end Sample

/-- An odd number of cents is a cent short after an eighth was ordered and removed.  So is a
    large even one after an amount whose last digits have no room. -/
theorem delete_leaves_cent_short :
    (∀ vanilla ∈ ["12.55", "-7922816251426433759.34"], ∀ item ∈ (Sample.parlor vanilla).items,
      item.stock.isTracked = true ∧ item.stock.InCents ∧
        item.stock.AmountsBelow amountLimit) ∧
    Sample.vanillaIn (Sample.parlor "12.55") = some 12.55 ∧
    (Sample.afterRemoval (Sample.parlor "12.55") "0.125").bind Sample.vanillaIn = some 12.54 ∧
    Sample.vanillaIn (Sample.parlor "-7922816251426433759.34") =
      some (-7922816251426433759.34) ∧
    (Sample.afterRemoval (Sample.parlor "-7922816251426433759.34") "0.0149999999").bind
      Sample.vanillaIn = some (-7922816251426433759.35) := by
  decide +kernel

end PointOfSale

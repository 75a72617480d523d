/-
  PointOfSale/Proofs/Ledger/Run.lean
  ==================================
  **What a run of the ledger leaves alone, and how runs compose.**  A movement of stock
  depends on the rules of the stock and not on its amounts, and a run changes amounts only:
  whether stock is tracked, and every rule, stays as it was.

  A run over two rows of selections is the run over the first and then, on the stock which
  that left, the run over the second; the amounts that were reported for the second stand
  over those for the first.
-/
import PointOfSale.Ledger
import PointOfSale.Proofs.Checked
import PointOfSale.Proofs.Table

namespace PointOfSale

/-- Two stocks with the same rules differ in their amounts at most. -/
def Stock.SameRules (a b : Stock) : Prop := ∃ amounts, b = a.withAmounts amounts

namespace Stock

@[simp] theorem amounts_withAmounts (s : Stock) (amounts : AmountTable) :
    (s.withAmounts amounts).amounts = amounts := rfl

@[simp] theorem isTracked_withAmounts (s : Stock) (amounts : AmountTable) :
    (s.withAmounts amounts).isTracked = s.isTracked := rfl

@[simp] theorem withAmounts_withAmounts (s : Stock) (a b : AmountTable) :
    (s.withAmounts a).withAmounts b = s.withAmounts b := rfl

theorem SameRules.refl (s : Stock) : SameRules s s := ⟨s.amounts, rfl⟩

theorem SameRules.trans {a b c : Stock} : SameRules a b → SameRules b c → SameRules a c := by
  rintro ⟨x, rfl⟩ ⟨y, rfl⟩
  exact ⟨y, rfl⟩

theorem SameRules.withAmounts_amounts {a b : Stock} (h : SameRules a b) :
    a.withAmounts b.amounts = b := by
  obtain ⟨x, rfl⟩ := h
  rfl

theorem SameRules.isTracked {a b : Stock} (h : SameRules a b) : b.isTracked = a.isTracked := by
  obtain ⟨x, rfl⟩ := h
  rfl

end Stock

/-- The movement of a selection follows from the rules of the stock alone. -/
@[simp] theorem Movement.ofSelection_withAmounts (stock : Stock) (amounts : AmountTable)
    (s : Selection) : ofSelection (stock.withAmounts amounts) s = ofSelection stock s := rfl

theorem Movement.ofSelection_of_sameRules {a b : Stock} (h : a.SameRules b) (s : Selection) :
    ofSelection b s = ofSelection a s := by
  obtain ⟨x, rfl⟩ := h
  rfl

namespace Ledger

/-- A move succeeds exactly when its movement is computed and its amount is moved. -/
theorem move_eq_ok_iff {op : Operation} {stock moved : Stock} {s : Selection} :
    move op stock s = .ok moved ↔
      ∃ m amounts, Movement.ofSelection stock s = .ok m ∧
        moveAmount op stock.amounts m = .ok amounts ∧ moved = stock.withAmounts amounts := by
  simp only [move, bind_eq_ok_iff, pure_eq_ok_iff]
  constructor
  · rintro ⟨m, hm, amounts, hamounts, rfl⟩
    exact ⟨m, amounts, hm, hamounts, rfl⟩
  · rintro ⟨m, amounts, hm, hamounts, rfl⟩
    exact ⟨m, hm, amounts, hamounts, rfl⟩

theorem sameRules_of_move {op : Operation} {stock moved : Stock} {s : Selection}
    (h : move op stock s = .ok moved) : stock.SameRules moved := by
  obtain ⟨m, amounts, -, -, rfl⟩ := move_eq_ok_iff.1 h
  exact ⟨amounts, rfl⟩

theorem step_eq_ok_iff {ledger : Ledger} {op : Operation} {o next : LedgerOutcome}
    {s : Selection} :
    ledger.step op o s = .ok next ↔
      ∃ stock, move op o.stock s = .ok stock ∧
        next = ⟨stock, o.amounts.insert (ledger.keyOf s) stock.amounts⟩ := by
  simp only [step, bind_eq_ok_iff, pure_eq_ok_iff, eq_comm (b := next)]

theorem sameRules_of_foldlM {ledger : Ledger} {op : Operation} {selections : List Selection}
    {o last : LedgerOutcome} (h : selections.foldlM (ledger.step op) o = .ok last) :
    o.stock.SameRules last.stock := by
  refine foldlM_induction (fun x => o.stock.SameRules x.stock) ?_ (.refl _) h
  intro x s next hx hnext
  obtain ⟨stock, hmove, rfl⟩ := step_eq_ok_iff.1 hnext
  exact hx.trans (sameRules_of_move hmove)

theorem evaluate_of_untracked (ledger : Ledger) {stock : Stock} (selections : List Selection)
    (op : Operation) (h : stock.isTracked = false) :
    ledger.evaluate stock selections op = .ok ⟨stock, ∅⟩ := by
  simp [evaluate, h]

theorem evaluate_of_tracked (ledger : Ledger) {stock : Stock} (selections : List Selection)
    (op : Operation) (h : stock.isTracked = true) :
    ledger.evaluate stock selections op = selections.foldlM (ledger.step op) ⟨stock, ∅⟩ := by
  simp [evaluate, h]

/-- For one selection a run is one move, and the amounts after it are the report. -/
theorem evaluate_singleton (ledger : Ledger) {stock : Stock} (s : Selection) (op : Operation)
    (h : stock.isTracked = true) :
    ledger.evaluate stock [s] op =
      (fun moved => ⟨moved, (∅ : Table AmountTable).insert (ledger.keyOf s) moved.amounts⟩) <$>
        move op stock s := by
  rw [evaluate_of_tracked ledger [s] op h, List.foldlM_cons, step]
  cases move op stock s <;> rfl

theorem evaluate_of_movement_error (ledger : Ledger) {stock : Stock} {s : Selection}
    (op : Operation) {fault : Fault} (htracked : stock.isTracked = true)
    (h : Movement.ofSelection stock s = .error fault) :
    ledger.evaluate stock [s] op = .error fault := by
  rw [evaluate_singleton ledger s op htracked, move, h]
  rfl

theorem sameRules_of_evaluate {ledger : Ledger} {stock : Stock} {selections : List Selection}
    {op : Operation} {o : LedgerOutcome} (h : ledger.evaluate stock selections op = .ok o) :
    stock.SameRules o.stock := by
  cases htracked : stock.isTracked with
  | false =>
    rw [evaluate_of_untracked ledger selections op htracked] at h
    cases h
    exact .refl _
  | true =>
    rw [evaluate_of_tracked ledger selections op htracked] at h
    exact sameRules_of_foldlM h

end Ledger

/-! ### Runs one after the other

What a step does to the stock does not depend on what was reported before it
(`step_after`), and by induction neither does a run (`foldlM_after`); that is why the
second run may start with an empty report. -/

/-- An outcome whose report stands over an earlier one. -/
def LedgerOutcome.after (reported : Table AmountTable) (o : LedgerOutcome) : LedgerOutcome :=
  ⟨o.stock, reported.overlay o.amounts⟩

theorem LedgerOutcome.after_empty (o : LedgerOutcome) : after o.amounts ⟨o.stock, ∅⟩ = o := by
  rw [after, Table.overlay_empty]

namespace Ledger

variable {ledger : Ledger} {op : Operation} {reported : Table AmountTable}

theorem step_after (o : LedgerOutcome) (s : Selection) :
    ledger.step op (o.after reported) s = LedgerOutcome.after reported <$> ledger.step op o s := by
  unfold step LedgerOutcome.after
  cases move op o.stock s with
  | error e => rfl
  | ok moved =>
    simp only [ok_bind]
    rw [← Table.overlay_insert]
    rfl

theorem foldlM_after (selections : List Selection) (o : LedgerOutcome) :
    selections.foldlM (ledger.step op) (o.after reported) =
      LedgerOutcome.after reported <$> selections.foldlM (ledger.step op) o := by
  induction selections generalizing o with
  | nil => rfl
  | cons s rest ih =>
    rw [List.foldlM_cons, List.foldlM_cons, step_after]
    cases ledger.step op o s with
    | error e => rfl
    | ok next => exact ih next

/-- **Runs compose**, stock, report and fault alike; the fault of the first run comes first. -/
theorem evaluate_append (ledger : Ledger) (stock : Stock) (xs ys : List Selection)
    (op : Operation) :
    ledger.evaluate stock (xs ++ ys) op = do
      let first ← ledger.evaluate stock xs op
      let second ← ledger.evaluate first.stock ys op
      return ⟨second.stock, first.amounts.overlay second.amounts⟩ := by
  cases htracked : stock.isTracked with
  | false =>
    rw [evaluate_of_untracked ledger _ op htracked, evaluate_of_untracked ledger xs op htracked,
      ok_bind, evaluate_of_untracked ledger ys op htracked]
    rfl
  | true =>
    rw [evaluate_of_tracked ledger _ op htracked, evaluate_of_tracked ledger xs op htracked,
      List.foldlM_append]
    cases hfirst : xs.foldlM (ledger.step op) ⟨stock, ∅⟩ with
    | error e => rfl
    | ok first =>
      have hrules : stock.SameRules first.stock := sameRules_of_foldlM hfirst
      have hrest : ys.foldlM (ledger.step op) first =
          LedgerOutcome.after first.amounts <$> ys.foldlM (ledger.step op) ⟨first.stock, ∅⟩ := by
        rw [← foldlM_after, LedgerOutcome.after_empty]
      rw [ok_bind, ok_bind, evaluate_of_tracked ledger ys op (hrules.isTracked.trans htracked),
        hrest]
      cases ys.foldlM (ledger.step op) ⟨first.stock, ∅⟩ <;> rfl

end Ledger

end PointOfSale

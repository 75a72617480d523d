/-
  PointOfSale/Proofs/Order/Charging.lean
  ======================================
  **What is charged and what is consumed.**  A price goes by the first choice for
  each label, whatever stands behind it.  Stock moves by the same choice exactly
  when the selection is settled on every label (`evaluate_firstOnly_iff`).  It need
  not be: a selection with two amounts is charged for one and consumes the other.
-/
import Mathlib.Data.Fintype.EquivFin
import PointOfSale.Order.Desk
import PointOfSale.Proofs.Ledger.Choices
import PointOfSale.Proofs.Ledger.Run
import PointOfSale.Proofs.Pricing.Pairing
import PointOfSale.Proofs.Table

namespace PointOfSale

/-- The selection with the first choice for every label alone. -/
def Selection.firstOnly (s : Selection) : Selection :=
  { s with choices := firstChoices s.choices }

variable {s : Selection} {stock : Stock}

/-- Prices see the first choices only. -/
theorem Desk.price_firstOnly (desk : Desk) (item : Item) (s : Selection) :
    desk.price item s.firstOnly.choices = desk.price item s.choices := by
  have hpairs : FieldPair.pairByLabel item.fields s.firstOnly.choices =
      FieldPair.pairByLabel item.fields s.choices := by
    rw [FieldPair.pairByLabel_eq, FieldPair.pairByLabel_eq]
    apply List.map_congr_left
    intro f _
    simp only [FieldPair.ofChoices, Selection.firstOnly, chosenValue?_firstChoices]
  rw [Desk.price, Quote.evaluate, Breakdown.evaluate, hpairs]
  rfl

theorem Movement.ofSelection_firstOnly
    (h : ∀ label ∈ stock.readLabels, SettledOn s.choices label) :
    ofSelection stock s.firstOnly = ofSelection stock s := by
  rw [ofSelection, ofSelection, Selection.firstOnly, ofChoices_firstChoices h]

/-- On a selection that is settled on the labels that are read, the ledger moves the stock
    that the first choices ask for. -/
theorem Ledger.evaluate_firstOnly (ledger : Ledger) (op : Operation)
    (h : ∀ label ∈ stock.readLabels, SettledOn s.choices label) :
    ledger.evaluate stock [s.firstOnly] op = ledger.evaluate stock [s] op := by
  cases htracked : stock.isTracked with
  | false =>
    rw [evaluate_of_untracked ledger _ op htracked, evaluate_of_untracked ledger _ op htracked]
  | true =>
    rw [evaluate_singleton ledger _ op htracked, evaluate_singleton ledger _ op htracked, move,
      move, Movement.ofSelection_firstOnly h]
    rfl

/-! ### Stocks that tell choices apart -/

theorem exists_unchosen (choices : List Choice) :
    ∃ label, chosenValue? choices label = none ∧ label ≠ noDependency ∧ label ≠ onePerOrder := by
  obtain ⟨label, hlabel⟩ := Infinite.exists_notMem_finset
    (noDependency :: onePerOrder :: choices.map (·.label)).toFinset
  simp only [List.mem_toFinset, List.mem_cons, List.mem_map, not_or, not_exists, not_and] at hlabel
  obtain ⟨hnone, hone, hchosen⟩ := hlabel
  refine ⟨label, ?_, hnone, hone⟩
  rw [chosenValue?, Option.map_eq_none_iff, List.find?_eq_none]
  intro c hc
  simpa using hchosen c hc

/-- One amount, consumed under a multiplier that the choice for a label picks. -/
def Stock.multipliedBy (unchosen label : String) (figures : Table MultiplierEntry) : Stock :=
  { isTracked := true
    decrementer := unchosen
    multiplier := { names := [label], amounts := figures } }

/-- Two multipliers that are no numbers: each is named by the fault that it causes. -/
def tellingFigures (first last : String) : Table MultiplierEntry :=
  .ofList [(first, .flat ⟨"first"⟩), (last, .flat ⟨"last"⟩)]

/-- One amount for each choice for a field, consumed by the choice for another. -/
def Stock.splitBy (unchosen label : String) : Stock :=
  { isTracked := true
    dependsOn := { name := unchosen }
    decrementer := label }

namespace Movement

variable {label unchosen : String}

theorem ofSelection_multipliedBy {figures : Table MultiplierEntry} {v l : Literal} {fault : Fault}
    (hunchosen : chosenValue? s.choices unchosen = none) (hone : unchosen ≠ onePerOrder)
    (hv : lastValue? s.choices label = some v) (hl : figures.get? v.text = some (.flat l))
    (hfault : l.number = .error fault) :
    ofSelection (Stock.multipliedBy unchosen label figures) s = .error fault := by
  have hunit : (Stock.multipliedBy unchosen label figures).isSingleUnit = false := by
    simp [Stock.isSingleUnit, Stock.multipliedBy, hone]
  have hfirst : textRead s.choices (some label) = some v.text := by
    simp [textRead, hv]
  rw [ofSelection, hunit, ofChoices_eq]
  simp [Stock.multipliedBy, amountRead_of_unchosen hunchosen, hfirst, keyOf, multiplied,
    multiplierEntry?, hl, hfault]

theorem ofSelection_splitBy {d : Decimal} (hunchosen : chosenValue? s.choices unchosen = none)
    (hnone : unchosen ≠ noDependency) (hd : amountRead s.choices label = .ok d) :
    ofSelection (Stock.splitBy unchosen label) s = .error (.selectionNotFound unchosen) := by
  have hunit : (Stock.splitBy unchosen label).isSingleUnit = false := by
    simp [Stock.isSingleUnit, Stock.splitBy, hnone]
  rw [ofSelection, hunit, ofChoices_eq]
  simp [Stock.splitBy, hd, keyOf, hnone, textRead, lastValue?_of_unchosen hunchosen]

theorem ofSelection_splitBy_of_error {fault : Fault} (hnone : unchosen ≠ noDependency)
    (hfault : amountRead s.choices label = .error fault) :
    ofSelection (Stock.splitBy unchosen label) s = .error fault := by
  have hunit : (Stock.splitBy unchosen label).isSingleUnit = false := by
    simp [Stock.isSingleUnit, Stock.splitBy, hnone]
  rw [ofSelection, hunit, ofChoices_eq]
  simp [Stock.splitBy, hfault]

end Movement

/-- If no stock tells the first choices from all of them, the choices are settled. -/
theorem SettledOn.of_evaluate
    (h : ∀ (ledger : Ledger) (stock : Stock) (op : Operation),
      ledger.evaluate stock [s.firstOnly] op = ledger.evaluate stock [s] op) (label : String) :
    SettledOn s.choices label := by
  obtain ⟨unchosen, hunchosen, hnone, hone⟩ := exists_unchosen s.choices
  have hunchosenFirst : chosenValue? s.firstOnly.choices unchosen = none := by
    rw [Selection.firstOnly, chosenValue?_firstChoices, hunchosen]
  constructor
  · cases hfirst : chosenValue? s.choices label with
    | none => exact lastValue?_of_unchosen hfirst
    | some first =>
      obtain ⟨last, hlast⟩ := exists_lastValue? hfirst
      rw [hlast]
      by_contra hne
      have htexts : last.text ≠ first.text := by
        intro heq
        apply hne
        cases last
        cases first
        exact congrArg _ (congrArg _ heq)
      have hfirstOnly : lastValue? s.firstOnly.choices label = some first := by
        rw [Selection.firstOnly, lastValue?_firstChoices, hfirst]
      have hfigure : (tellingFigures first.text last.text).get? first.text =
          some (.flat ⟨"first"⟩) := by
        simp [tellingFigures, Table.ofList, Table.get?_insert, Ne.symm htexts]
      have hother : (tellingFigures first.text last.text).get? last.text =
          some (.flat ⟨"last"⟩) := by
        simp [tellingFigures, Table.ofList]
      have hstock := h {}
        (Stock.multipliedBy unchosen label (tellingFigures first.text last.text)) .add
      rw [Ledger.evaluate_of_movement_error {} .add rfl
          (Movement.ofSelection_multipliedBy hunchosenFirst hone hfirstOnly hfigure rfl),
        Ledger.evaluate_of_movement_error {} .add rfl
          (Movement.ofSelection_multipliedBy hunchosen hone hlast hother rfl)] at hstock
      simp at hstock
  · intro first d hfirst hd
    have hread : Movement.amountRead s.firstOnly.choices label = .ok d := by
      rw [Selection.firstOnly, Movement.amountRead_firstChoices, hfirst]
      exact hd
    rcases Movement.amountRead_cases s.choices label with ⟨_, -, hall⟩ | ⟨text, htext⟩
    · exact hall
    · have hstock := h {} (Stock.splitBy unchosen label) .add
      rw [Ledger.evaluate_of_movement_error {} .add rfl
          (Movement.ofSelection_splitBy hunchosenFirst hnone hread),
        Ledger.evaluate_of_movement_error {} .add rfl
          (Movement.ofSelection_splitBy_of_error hnone htext)] at hstock
      simp at hstock

/-- **When stock moves by what is charged.**  The price of a selection is that of its first
    choices.  The ledger does with the first choices what it does with all of them on a stock
    for which the selection is settled on the labels that are read; and on every stock exactly
    when the selection is settled on every label. -/
theorem evaluate_firstOnly_iff (s : Selection) :
    (∀ (desk : Desk) (item : Item),
      desk.price item s.firstOnly.choices = desk.price item s.choices) ∧
    (∀ (ledger : Ledger) (stock : Stock) (op : Operation),
      (∀ label ∈ stock.readLabels, SettledOn s.choices label) →
        ledger.evaluate stock [s.firstOnly] op = ledger.evaluate stock [s] op) ∧
    ((∀ (ledger : Ledger) (stock : Stock) (op : Operation),
      ledger.evaluate stock [s.firstOnly] op = ledger.evaluate stock [s] op) ↔
      ∀ label, SettledOn s.choices label) := by
  refine ⟨fun desk item => desk.price_firstOnly item s,
    fun ledger stock op h => ledger.evaluate_firstOnly op h, ?_⟩
  constructor
  · intro h label
    exact SettledOn.of_evaluate h label
  · intro h ledger stock op
    exact ledger.evaluate_firstOnly op fun label _ => h label

namespace Sample

def scoopStock : Stock :=
  { isTracked := true
    dependsOn := { name := "Flavor", amounts := .ofList [("Mocha", ⟨"6"⟩)] }
    decrementer := "Amount" }

/-- A scoop that is asked for with two amounts. -/
def twoAmounts : Selection :=
  { itemId := .nil, choices := [⟨"Flavor", ⟨"Mocha"⟩⟩, ⟨"Amount", ⟨"1"⟩⟩, ⟨"Amount", ⟨"2.5"⟩⟩] }

end Sample

/-- One is charged for, and two and a half are taken. -/
theorem evaluate_twoAmounts_ne :
    Sample.twoAmounts.valueOf? "Amount" = some ⟨"1"⟩ ∧
    ∃ o first, ({} : Ledger).evaluate Sample.scoopStock [Sample.twoAmounts] Operation.take = .ok o ∧
      ({} : Ledger).evaluate Sample.scoopStock [Sample.twoAmounts.firstOnly] Operation.take =
        .ok first ∧
      o.stock.amounts.get? "Mocha" = some ⟨"3.5"⟩ ∧
      first.stock.amounts.get? "Mocha" = some ⟨"5.0"⟩ := by
  refine ⟨by decide, ?_⟩
  have htaken : ∃ o, ({} : Ledger).evaluate Sample.scoopStock [Sample.twoAmounts]
      Operation.take = .ok o ∧ o.stock.amounts.get? "Mocha" = some ⟨"3.5"⟩ :=
    ⟨_, rfl, by decide +kernel⟩
  have hcharged : ∃ o, ({} : Ledger).evaluate Sample.scoopStock [Sample.twoAmounts.firstOnly]
      Operation.take = .ok o ∧ o.stock.amounts.get? "Mocha" = some ⟨"5.0"⟩ :=
    ⟨_, rfl, by decide +kernel⟩
  obtain ⟨o, ho, hmocha⟩ := htaken
  obtain ⟨first, hfirst, hleft⟩ := hcharged
  exact ⟨o, first, ho, hfirst, hmocha, hleft⟩

end PointOfSale

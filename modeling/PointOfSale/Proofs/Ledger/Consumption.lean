/-
  PointOfSale/Proofs/Ledger/Consumption.lean
  ==========================================
  **What a selection consumes.**  Unless stock is one amount of which every piece takes
  one unit, the movement of a selection follows a formula in the last value for each
  label (`Consumes`):

    amount = (portion × factor) × quantity,    under the key chosen for the stock.

  The portion is the value for the consumed field and the factor that of the table of
  multipliers; both are one where there is none.  The scan of the choices fills four
  places with one pass, and a label may fill several of them; it was taken apart label by
  label in `Movement.ofChoices_eq`, and what is left here is the arithmetic, and that the
  scan does not see an order in which the choices for each label keep theirs.
-/
import PointOfSale.Proofs.Decimal.Fitting
import PointOfSale.Proofs.Ledger.Amounts
import PointOfSale.Proofs.Ledger.Choices

namespace PointOfSale

/-! ### The formula -/

/-- The number of a figure, one where there is no figure. -/
def numberOrOne : Option Literal → Except Fault Decimal
  | some l => l.number
  | none => .ok Decimal.one

/-- The figure for what was chosen: under the value for the first name, and under that for
    the second too where there is one for each.  A second name is another than the first. -/
def StockMultiplier.figureFor? (m : StockMultiplier) (value? : String → Option Literal) :
    Option Literal :=
  match m.names with
  | [] => none
  | first :: others => do
    match ← m.amounts.get? (← value? first).text with
    | .flat l => some l
    | .nested t =>
      let second ← others.head?
      if second = first then none else t.get? (← value? second).text

/-- The movement that a selection calls for, by the last value for each label. -/
structure Consumes (stock : Stock) (s : Selection) (m : Movement) : Prop where
  key : stock.dependsOn.name = noDependency ∧ m.key = unnamedKey ∨
    stock.dependsOn.name ≠ noDependency ∧
      ∃ v, lastValue? s.choices stock.dependsOn.name = some v ∧ m.key = v.text
  amount : ∃ portion factor scaled,
    numberOrOne (lastValue? s.choices stock.decrementer) = .ok portion ∧
    numberOrOne (stock.multiplier.figureFor? (lastValue? s.choices)) = .ok factor ∧
    portion.mul? factor = some scaled ∧
    scaled.mul? (Decimal.ofUInt32 s.quantity) = some m.amount

/-! ### Multiplying by one -/

namespace Decimal

theorem nearest?_self (d : Decimal) :
    nearest? d.negative d.magnitude (10 ^ d.scale) d.scale = some d := by
  have hround : roundHalfEven (d.magnitude * 10 ^ d.scale) (10 ^ d.scale) = d.magnitude := by
    rw [roundHalfEven_of_dvd (Nat.pow_pos (by decide)) (Nat.dvd_mul_left _ _),
      Nat.mul_div_cancel _ (Nat.pow_pos (by decide))]
  have hparts : ofParts? d.negative d.magnitude d.scale = some d :=
    ofParts?_eq_some_iff.2 ⟨d.magnitude_lt, d.scale_le, rfl⟩
  cases hscale : d.scale with
  | zero =>
    rw [hscale, Nat.pow_zero, Nat.mul_one] at hround
    rw [nearest?, Nat.pow_zero, hround, ← hscale, hparts]
  | succ n =>
    rw [hscale] at hround hparts
    rw [nearest?, hround, hparts]

theorem mul?_one {d : Decimal} (hd : d.isZero = false) : d.mul? one = some d := by
  have hshort : ¬shortProductScale < d.scale := by
    have hscale := d.scale_le
    unfold maxScale at hscale
    unfold shortProductScale
    omega
  have hone : one.isZero = false := by decide
  have hsign : (d.negative != one.negative) = d.negative := by
    cases d.negative <;> rfl
  have hparts : one.scale = 0 ∧ one.magnitude = 1 := by decide
  unfold mul?
  simp only [hd, hone, hsign, hparts, hshort, Nat.add_zero, Nat.mul_one, decide_false,
    Bool.and_false, Bool.or_self, Bool.false_eq_true, if_false]
  exact nearest?_self d

theorem zero_mul? {d : Decimal} (hd : d.isZero = true) (e : Decimal) : d.mul? e = some zero := by
  simp [mul?, hd]

/-- A product with one stands for the number in every further product. -/
theorem exists_mul?_one (d : Decimal) :
    ∃ e, d.mul? one = some e ∧ ∀ q, e.mul? q = d.mul? q := by
  cases hd : d.isZero with
  | false => exact ⟨d, mul?_one hd, fun _ => rfl⟩
  | true =>
    refine ⟨zero, zero_mul? hd one, ?_⟩
    intro q
    rw [zero_mul? hd q, zero_mul? (by decide) q]

end Decimal

namespace Movement

variable {stock : Stock} {choices other : List Choice} {label : String} {s : Selection}
  {m : Movement}

/-! ### The places that the scan fills -/

theorem amountRead_of_numbers
    (hall : ∀ c ∈ choices, c.label = label → ∃ e, c.value.number = .ok e) :
    amountRead choices label = numberOrOne (lastValue? choices label) := by
  have hvalues := forall_number_of_choices hall
  obtain ⟨ds, hds, hlast⟩ := mapM_number_of_forall hvalues
  rw [amountRead, hds, ok_map, lastValue?_eq_getLast?, List.getLastD_eq_getLast?, hlast]
  cases hvalue : ((choices.filter (·.label = label)).map (·.value)).getLast? with
  | none => rfl
  | some l =>
    obtain ⟨d, hd⟩ := hvalues l (List.mem_of_getLast? hvalue)
    simp [numberOrOne, hd, Except.toOption]

/-- The last number counts, where all are numbers. -/
theorem amountRead_eq_ok_iff {d : Decimal} :
    amountRead choices label = .ok d ↔
      (∀ c ∈ choices, c.label = label → ∃ e, c.value.number = .ok e) ∧
        numberOrOne (lastValue? choices label) = .ok d := by
  constructor
  · intro h
    rcases amountRead_cases choices label with ⟨e, -, hall⟩ | ⟨text, herror⟩
    · exact ⟨hall, (amountRead_of_numbers hall).symm.trans h⟩
    · rw [herror] at h
      cases h
  · rintro ⟨hall, h⟩
    exact (amountRead_of_numbers hall).trans h

/-- What was read for the two names leads to the figure for them. -/
theorem figure_of_reading (m : StockMultiplier) (choices : List Choice) (amount : Decimal)
    (key : Option String) :
    multiplierEntry? m
        ⟨amount, key, textRead choices m.names[0]?, textRead choices (secondName m.names)⟩ =
      m.figureFor? (lastValue? choices) := by
  unfold multiplierEntry? StockMultiplier.figureFor?
  cases m.names with
  | nil => rfl
  | cons first others =>
    cases hvalue : lastValue? choices first with
    | none => simp [textRead, hvalue]
    | some v =>
      simp only [textRead, List.getElem?_cons_zero, Option.bind_some, hvalue, Option.map_some,
        Option.bind_eq_bind]
      rcases m.amounts.get? v.text with _ | ⟨l | t⟩
      · rfl
      · rfl
      · cases others with
        | nil => simp [secondName]
        | cons second rest =>
          by_cases hsame : second = first
          · simp [secondName, hsame]
          · have hother : first ≠ second := Ne.symm hsame
            simp [secondName, hsame, hother, Option.bind_map]

theorem keyOf_eq_ok_iff {r : Reading} {key : String} :
    keyOf stock r = .ok key ↔
      stock.dependsOn.name = noDependency ∧ key = unnamedKey ∨
        stock.dependsOn.name ≠ noDependency ∧ r.key = some key := by
  unfold keyOf
  by_cases hname : stock.dependsOn.name = noDependency
  · simp [hname, eq_comm]
  · cases hkey : r.key <;> simp [hname]

/-- An amount without a multiplier goes into the product as if it were multiplied by one. -/
theorem exists_multiplied_iff {m : StockMultiplier} {r : Reading} {quantity product : Decimal} :
    (∃ amount, multiplied m r = .ok amount ∧ amount.mul? quantity = some product) ↔
      ∃ factor scaled, (numberOrOne <| multiplierEntry? m r) = .ok factor ∧
        r.amount.mul? factor = some scaled ∧ scaled.mul? quantity = some product := by
  unfold multiplied
  cases multiplierEntry? m r with
  | none =>
    obtain ⟨scaled, hscaled, hproduct⟩ := Decimal.exists_mul?_one r.amount
    constructor
    · rintro ⟨amount, hamount, h⟩
      cases hamount
      exact ⟨Decimal.one, scaled, rfl, hscaled, (hproduct quantity).trans h⟩
    · rintro ⟨factor, other, hfactor, hother, h⟩
      cases hfactor
      rw [hscaled] at hother
      cases hother
      exact ⟨r.amount, rfl, (hproduct quantity).symm.trans h⟩
  | some l =>
    simp only [bind_eq_ok_iff, Operation.apply_eq_ok_iff, Operation.result?, numberOrOne]
    constructor
    · rintro ⟨scaled, ⟨factor, hfactor, hscaled⟩, h⟩
      exact ⟨factor, scaled, hfactor, hscaled, h⟩
    · rintro ⟨factor, scaled, hfactor, hscaled, h⟩
      exact ⟨scaled, ⟨factor, hfactor, hscaled⟩, h⟩

/-- **The consumption formula.** -/
theorem ofSelection_eq_ok_iff (hsplit : stock.isSingleUnit = false) :
    ofSelection stock s = .ok m ↔
      (∀ c ∈ s.choices, c.label = stock.decrementer → ∃ d, c.value.number = .ok d) ∧
        Consumes stock s m := by
  have hkey : ∀ {key : String},
      textRead s.choices (some stock.dependsOn.name) = some key ↔
        ∃ v, lastValue? s.choices stock.dependsOn.name = some v ∧ key = v.text := by
    simp [textRead, eq_comm]
  unfold ofSelection
  rw [ofChoices_eq]
  simp only [hsplit, Bool.false_eq_true, if_false, bind_eq_ok_iff, map_eq_ok_iff,
    pure_eq_ok_iff, Operation.apply_eq_ok_iff, Operation.result?]
  constructor
  · rintro ⟨r, ⟨portion, hportion, rfl⟩, key, hread, amount, hamount, product, hproduct, rfl⟩
    obtain ⟨hnumbers, hportion⟩ := amountRead_eq_ok_iff.1 hportion
    obtain ⟨factor, scaled, hfactor, hscaled, hproduct⟩ :=
      exists_multiplied_iff.1 ⟨amount, hamount, hproduct⟩
    rw [figure_of_reading] at hfactor
    rw [keyOf_eq_ok_iff, hkey] at hread
    exact ⟨hnumbers, hread, portion, factor, scaled, hportion, hfactor, hscaled, hproduct⟩
  · rintro ⟨hnumbers, hread, portion, factor, scaled, hportion, hfactor, hscaled, hproduct⟩
    have hvalue := amountRead_eq_ok_iff.2 ⟨hnumbers, hportion⟩
    refine ⟨_, ⟨portion, hvalue, rfl⟩, m.key, ?_, ?_⟩
    · rw [keyOf_eq_ok_iff, hkey]
      exact hread
    · rw [← figure_of_reading stock.multiplier s.choices portion
        (textRead s.choices (some stock.dependsOn.name))] at hfactor
      obtain ⟨amount, hamount, hproduct⟩ :=
        exists_multiplied_iff.2 ⟨factor, scaled, hfactor, hscaled, hproduct⟩
      exact ⟨amount, hamount, m.amount, hproduct, rfl⟩

end Movement

/-! ### Other orders of the choices -/

/-- The same choices in another order, which is the same for each label. -/
structure ReorderedByLabel (choices other : List Choice) : Prop where
  perm : choices.Perm other
  labels : ∀ label, choices.filter (·.label = label) = other.filter (·.label = label)

namespace ReorderedByLabel

variable {choices other : List Choice}

/-- Only labels that occur have to be compared. -/
theorem of_occurring (hperm : choices.Perm other)
    (hlabels : ∀ c ∈ choices,
      choices.filter (·.label = c.label) = other.filter (·.label = c.label)) :
    ReorderedByLabel choices other := by
  refine ⟨hperm, ?_⟩
  intro label
  by_cases hoccurs : ∃ c ∈ choices, c.label = label
  · obtain ⟨c, hc, rfl⟩ := hoccurs
    exact hlabels c hc
  · push Not at hoccurs
    have hnone : choices.filter (·.label = label) = [] := by
      simpa [List.filter_eq_nil_iff] using hoccurs
    have hlength := (hperm.filter (·.label = label)).length_eq
    rw [hnone, List.length_nil, eq_comm, List.length_eq_zero_iff] at hlength
    rw [hnone, hlength]

instance : Decidable (ReorderedByLabel choices other) :=
  decidable_of_iff
    (choices.Perm other ∧ ∀ c ∈ choices,
      choices.filter (·.label = c.label) = other.filter (·.label = c.label))
    ⟨fun h => of_occurring h.1 h.2, fun h => ⟨h.perm, fun c _ => h.labels c.label⟩⟩

theorem ofChoices_eq (h : ReorderedByLabel choices other) (stock : Stock) :
    Movement.Reading.ofChoices stock other = Movement.Reading.ofChoices stock choices := by
  have hvalue : ∀ label, lastValue? other label = lastValue? choices label := by
    intro label
    rw [lastValue?_eq_getLast?, lastValue?_eq_getLast?, h.labels label]
  have htext : ∀ label, Movement.textRead other label = Movement.textRead choices label := by
    intro label
    cases label with
    | none => rfl
    | some l => simp only [Movement.textRead, Option.bind_some, hvalue]
  rw [Movement.ofChoices_eq, Movement.ofChoices_eq, Movement.amountRead, ← h.labels]
  simp only [htext]
  rfl

end ReorderedByLabel

/-- **The consumption formula.**  Unless stock is one amount, a selection has a movement
    exactly where every value for the consumed field is a number and the formula gives one;
    the ledger moves this amount.  Another order of the choices that is the same for each
    label makes no difference to the movement or to the fault. -/
theorem Movement.ofSelection_formula {stock : Stock} (hsplit : stock.isSingleUnit = false)
    (s : Selection) :
    (∀ m, ofSelection stock s = .ok m ↔
      (∀ c ∈ s.choices, c.label = stock.decrementer → ∃ d, c.value.number = .ok d) ∧
        Consumes stock s m) ∧
    (∀ (ledger : Ledger) (op : Operation) (o : LedgerOutcome), stock.isTracked = true →
      ledger.evaluate stock [s] op = .ok o →
      ∃ m, Consumes stock s m ∧ Ledger.moveAmount op stock.amounts m = .ok o.stock.amounts) ∧
    ∀ other, ReorderedByLabel s.choices other →
      ofSelection stock { s with choices := other } = ofSelection stock s := by
  refine ⟨fun m => ofSelection_eq_ok_iff hsplit, ?_, ?_⟩
  · intro ledger op o htracked h
    obtain ⟨m, hm, hmoved⟩ := Ledger.amounts_of_evaluate htracked h
    exact ⟨m, ((ofSelection_eq_ok_iff hsplit).1 hm).2, hmoved⟩
  · intro other h
    unfold ofSelection
    rw [h.ofChoices_eq stock]

namespace Sample

/-- Stock by flavor; the cup counts only with a large portion. -/
def cups : Stock :=
  { isTracked := true
    dependsOn := { name := "Flavor", amounts := .ofList [("Mocha", ⟨"20"⟩)] }
    decrementer := "Amount"
    multiplier :=
      { names := ["Size", "Cup", "Amount"]
        amounts := .ofList
          [("L", .nested (.ofList [("Glass", ⟨"3"⟩), ("Paper", ⟨"2"⟩)])), ("S", .flat ⟨"0.5"⟩)] } }

/-- Two glasses, after the customer had thought of a paper cup and of another portion. -/
def glasses : Selection :=
  { itemId := .nil
    quantity := 2
    choices := [⟨"Cup", ⟨"Paper"⟩⟩, ⟨"Amount", ⟨"9"⟩⟩, ⟨"Size", ⟨"L"⟩⟩, ⟨"Cup", ⟨"Glass"⟩⟩,
      ⟨"Flavor", ⟨"Mocha"⟩⟩, ⟨"Amount", ⟨"1.5"⟩⟩] }

def glassesByLabel : List Choice :=
  [⟨"Amount", ⟨"9"⟩⟩, ⟨"Amount", ⟨"1.5"⟩⟩, ⟨"Cup", ⟨"Paper"⟩⟩, ⟨"Cup", ⟨"Glass"⟩⟩,
    ⟨"Flavor", ⟨"Mocha"⟩⟩, ⟨"Size", ⟨"L"⟩⟩]

end Sample

/-- 1.5 for each glass, three times that for the cup, and two of them: 9 of 20. -/
theorem glasses_formula :
    Sample.cups.isSingleUnit = false ∧ Sample.cups.isTracked = true ∧
    ReorderedByLabel Sample.glasses.choices Sample.glassesByLabel ∧
    (∃ o, ({} : Ledger).evaluate Sample.cups [Sample.glasses] Operation.take = .ok o ∧
      o.stock.amounts = .ofList [("Mocha", ⟨"11.0"⟩)] ∧
      ∃ m, Consumes Sample.cups Sample.glasses m ∧
        Ledger.moveAmount Operation.take Sample.cups.amounts m = .ok o.stock.amounts) ∧
    ∃ m, Consumes Sample.cups Sample.glasses m ∧ m.key = "Mocha" ∧ m.amount.value = 9 ∧
      Movement.ofSelection Sample.cups { Sample.glasses with choices := Sample.glassesByLabel } =
        .ok m := by
  have hsplit : Sample.cups.isSingleUnit = false := by decide
  have horder : ReorderedByLabel Sample.glasses.choices Sample.glassesByLabel := by
    decide +kernel
  have hrun : ∃ o, ({} : Ledger).evaluate Sample.cups [Sample.glasses] Operation.take = .ok o ∧
      o.stock.amounts = .ofList [("Mocha", ⟨"11.0"⟩)] :=
    ⟨_, rfl, by decide +kernel⟩
  have hmovement : ∃ m, Movement.ofSelection Sample.cups Sample.glasses = .ok m ∧
      m.key = "Mocha" ∧ m.amount.value = 9 :=
    ⟨_, rfl, by decide +kernel, by decide +kernel⟩
  obtain ⟨o, ho, hamounts⟩ := hrun
  obtain ⟨m, hm, hkey, hamount⟩ := hmovement
  obtain ⟨hformula, hmoved, hsame⟩ := Movement.ofSelection_formula hsplit Sample.glasses
  exact ⟨hsplit, rfl, horder, ⟨o, ho, hamounts, hmoved {} Operation.take o rfl ho⟩,
    m, ((hformula m).1 hm).2, hkey, hamount, (hsame _ horder).trans hm⟩

end PointOfSale

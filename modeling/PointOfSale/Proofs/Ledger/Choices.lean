/-
  PointOfSale/Proofs/Ledger/Choices.lean
  ======================================
  **Which of several choices with one label the ledger reads.**  The scan of the
  choices overwrites what it has read, so the last choice for a label counts,
  and every choice for the consumed field has to be a number (`ofChoices_eq`).
  Prices go by the first choice.  A row of choices is settled on a label if that
  makes no difference; `ofChoices_firstChoices` is the agreement that follows.
-/
import Mathlib.Data.List.Induction
import PointOfSale.Ledger
import PointOfSale.Proofs.Checked

namespace PointOfSale

variable {choices : List Choice} {label : String}

/-! ### First and last choices -/

/-- The value that a row of choices has for a label if the last of them counts. -/
def lastValue? (choices : List Choice) (label : String) : Option Literal :=
  chosenValue? choices.reverse label

/-- The first choice for every label. -/
def firstChoices : List Choice → List Choice
  | [] => []
  | c :: choices => c :: (firstChoices choices).filter (·.label ≠ c.label)

theorem lastValue?_concat (choices : List Choice) (c : Choice) (label : String) :
    lastValue? (choices ++ [c]) label =
      if c.label = label then some c.value else lastValue? choices label := by
  by_cases h : c.label = label
  · simp [lastValue?, chosenValue?, h]
  · simp [lastValue?, chosenValue?, h]

theorem chosenValue?_eq_head? (choices : List Choice) (label : String) :
    chosenValue? choices label = ((choices.filter (·.label = label)).map (·.value)).head? := by
  rw [chosenValue?, List.head?_map, List.head?_filter]

theorem lastValue?_eq_getLast? (choices : List Choice) (label : String) :
    lastValue? choices label = ((choices.filter (·.label = label)).map (·.value)).getLast? := by
  rw [lastValue?, chosenValue?_eq_head?, List.filter_reverse, List.map_reverse, List.head?_reverse]

theorem filter_firstChoices (choices : List Choice) (label : String) :
    (firstChoices choices).filter (·.label = label) =
      (choices.find? (·.label = label)).toList := by
  induction choices with
  | nil => rfl
  | cons c choices ih =>
    rw [firstChoices, List.filter_cons, List.filter_filter]
    by_cases h : c.label = label
    · simp [h]
    · have hsame : ∀ d : Choice, (decide (d.label = label) && decide (d.label ≠ c.label)) =
          decide (d.label = label) := by
        intro d
        by_cases hd : d.label = label
        · simp [hd, Ne.symm h]
        · simp [hd]
      simp only [h, hsame, ih, decide_false, Bool.false_eq_true, if_false, List.find?_cons]

theorem chosenValue?_firstChoices (choices : List Choice) (label : String) :
    chosenValue? (firstChoices choices) label = chosenValue? choices label := by
  rw [chosenValue?_eq_head?, filter_firstChoices, chosenValue?]
  cases choices.find? (·.label = label) <;> rfl

theorem filter_of_unchosen (h : chosenValue? choices label = none) :
    choices.filter (·.label = label) = [] := by
  rw [chosenValue?_eq_head?, List.head?_eq_none_iff, List.map_eq_nil_iff] at h
  exact h

theorem lastValue?_of_unchosen (h : chosenValue? choices label = none) :
    lastValue? choices label = none := by
  rw [lastValue?_eq_getLast?, filter_of_unchosen h]
  rfl

theorem exists_lastValue? {first : Literal} (h : chosenValue? choices label = some first) :
    ∃ last, lastValue? choices label = some last := by
  rw [chosenValue?_eq_head?] at h
  obtain ⟨values, hvalues⟩ := List.head?_eq_some_iff.1 h
  rw [lastValue?_eq_getLast?, hvalues]
  exact ⟨_, List.getLast?_eq_some_getLast (List.cons_ne_nil _ _)⟩

theorem lastValue?_firstChoices (choices : List Choice) (label : String) :
    lastValue? (firstChoices choices) label = chosenValue? choices label := by
  rw [lastValue?_eq_getLast?, filter_firstChoices, chosenValue?]
  cases choices.find? (·.label = label) <;> rfl

/-- The first and the last choice for a label have one value; if it is a number, so is the
    value of every choice for the label. -/
structure SettledOn (choices : List Choice) (label : String) : Prop where
  ends : lastValue? choices label = chosenValue? choices label
  numbers : ∀ first d, chosenValue? choices label = some first → first.number = .ok d →
    ∀ c ∈ choices, c.label = label → ∃ e, c.value.number = .ok e

/-! ### What the scan has read -/

/-- The labels whose choices the ledger reads. -/
def Stock.readLabels (stock : Stock) : List String :=
  stock.decrementer :: stock.dependsOn.name :: stock.multiplier.names.take 2

namespace Movement

/-- The number for the consumed field, one without a choice for it.  The last number
    counts, but every one is read. -/
def amountRead (choices : List Choice) (label : String) : Except Fault Decimal :=
  (·.getLastD Decimal.one) <$> ((choices.filter (·.label = label)).map (·.value)).mapM (·.number)

/-- The text of the last choice for a field, where there is such a field. -/
def textRead (choices : List Choice) (label : Option String) : Option String :=
  (label.bind (lastValue? choices)).map (·.text)

theorem textRead_concat (choices : List Choice) (c : Choice) (label : Option String) :
    textRead (choices ++ [c]) label =
      if label = some c.label then some c.value.text else textRead choices label := by
  cases label with
  | none => rfl
  | some l =>
    simp only [textRead, Option.bind_some, lastValue?_concat, Option.some.injEq, eq_comm (a := l)]
    split <;> rfl

theorem pick_eq (r : Reading) (names : List String) (c : Choice) :
    r.pick names c =
      { r with
        first := if names[0]? = some c.label then some c.value.text else r.first
        second :=
          if names[0]? ≠ some c.label ∧ names[1]? = some c.label then some c.value.text
          else r.second } := by
  rcases names with _ | ⟨a, _ | ⟨b, rest⟩⟩
  · rfl
  · by_cases ha : a = c.label
    · simp [Reading.pick, List.findIdx?_cons, ha]
    · simp [Reading.pick, List.findIdx?_cons, ha]
  · by_cases ha : a = c.label
    · simp [Reading.pick, List.findIdx?_cons, ha]
    · by_cases hb : b = c.label
      · simp [Reading.pick, List.findIdx?_cons, ha, hb]
      · simp [Reading.pick, List.findIdx?_cons, ha, hb]

/-- The name of the second field that picks a multiplier, if it is another than the first. -/
def secondName (names : List String) : Option String :=
  if names[0]? = names[1]? then none else names[1]?

theorem secondName_eq_some_iff {names : List String} :
    secondName names = some label ↔ names[0]? ≠ some label ∧ names[1]? = some label := by
  unfold secondName
  split
  · rename_i h
    constructor
    · intro hnone
      cases hnone
    · rintro ⟨hfirst, hsecond⟩
      exact absurd (h.trans hsecond) hfirst
  · rename_i h
    constructor
    · intro hsecond
      exact ⟨fun hfirst => h (hfirst.trans hsecond.symm), hsecond⟩
    · exact And.right

/-- Label by label, the scan of the choices reads the last value. -/
theorem ofChoices_eq (stock : Stock) (choices : List Choice) :
    Reading.ofChoices stock choices =
      (fun amount =>
        { amount
          key := textRead choices (some stock.dependsOn.name)
          first := textRead choices stock.multiplier.names[0]?
          second := textRead choices (secondName stock.multiplier.names) }) <$>
        amountRead choices stock.decrementer := by
  induction choices using List.reverseRecOn with
  | nil =>
    have hnone : ∀ label, textRead [] label = none := by
      intro label
      cases label <;> rfl
    simp only [hnone]
    rfl
  | append_singleton choices c ih =>
    rw [Reading.ofChoices, List.foldlM_append, ← Reading.ofChoices, ih]
    simp only [amountRead, List.filter_append, List.map_append, List.mapM_append]
    cases hread : ((choices.filter (·.label = stock.decrementer)).map (·.value)).mapM (·.number) with
    | error fault => rfl
    | ok amounts =>
      simp only [textRead_concat, secondName_eq_some_iff, Option.some.injEq]
      by_cases hlabel : c.label = stock.decrementer
      · cases hnumber : c.value.number with
        | error fault => simp [Reading.step, hlabel, hnumber]
        | ok d =>
          simp [Reading.step, hlabel, hnumber, pick_eq, eq_comm (a := stock.dependsOn.name)]
      · simp [Reading.step, hlabel, pick_eq, eq_comm (a := stock.dependsOn.name)]

/-! ### Rows of numbers -/

theorem exists_of_number_error {l : Literal} {fault : Fault} (h : l.number = .error fault) :
    ∃ text, fault = .invalidNumericLiteral text := by
  rw [Literal.number, Literal.parse] at h
  split at h
  · cases h
  · cases h
    exact ⟨l.text, rfl⟩

theorem mapM_number_of_forall {values : List Literal}
    (h : ∀ l ∈ values, ∃ d, l.number = .ok d) :
    ∃ ds, values.mapM (·.number) = .ok ds ∧
      ds.getLast? = values.getLast?.bind (·.number.toOption) := by
  induction values using List.reverseRecOn with
  | nil => exact ⟨[], rfl, rfl⟩
  | append_singleton values l ih =>
    obtain ⟨ds, hds, -⟩ := ih fun m hm => h m (List.mem_append_left _ hm)
    obtain ⟨d, hd⟩ := h l (by simp)
    refine ⟨ds ++ [d], ?_, ?_⟩
    · simp [hds, hd]
    · simp [hd, Except.toOption]

theorem mapM_number_error {values : List Literal} {l : Literal} (hmem : l ∈ values)
    (hl : ∀ d, l.number ≠ .ok d) :
    ∃ text, values.mapM (·.number) = .error (.invalidNumericLiteral text) := by
  induction values with
  | nil => cases hmem
  | cons m values ih =>
    rw [List.mapM_cons]
    cases hm : m.number with
    | error fault =>
      obtain ⟨text, rfl⟩ := exists_of_number_error hm
      exact ⟨text, rfl⟩
    | ok d =>
      rcases List.mem_cons.mp hmem with rfl | hrest
      · exact absurd hm (hl d)
      · obtain ⟨text, htext⟩ := ih hrest
        exact ⟨text, by simp [htext]⟩

/-! ### Choices that read the same from both ends -/

theorem forall_number_of_choices
    (hall : ∀ c ∈ choices, c.label = label → ∃ e, c.value.number = .ok e) :
    ∀ l ∈ (choices.filter (·.label = label)).map (·.value), ∃ e, l.number = .ok e := by
  intro l hl
  obtain ⟨c, hc, rfl⟩ := List.mem_map.1 hl
  obtain ⟨hmem, hlabel⟩ := List.mem_filter.1 hc
  exact hall c hmem (by simpa using hlabel)

/-- The amount is read, or one of the values is no number. -/
theorem amountRead_cases (choices : List Choice) (label : String) :
    (∃ d, amountRead choices label = .ok d ∧
      ∀ c ∈ choices, c.label = label → ∃ e, c.value.number = .ok e) ∨
    ∃ text, amountRead choices label = .error (.invalidNumericLiteral text) := by
  by_cases hall : ∀ c ∈ choices, c.label = label → ∃ e, c.value.number = .ok e
  · left
    obtain ⟨ds, hds, -⟩ := mapM_number_of_forall (forall_number_of_choices hall)
    exact ⟨_, by rw [amountRead, hds, ok_map], hall⟩
  · right
    push Not at hall
    obtain ⟨c, hc, hlabel, hnumber⟩ := hall
    have hmem : c.value ∈ (choices.filter (·.label = label)).map (·.value) :=
      List.mem_map_of_mem (by simp [hc, hlabel])
    obtain ⟨text, htext⟩ := mapM_number_error hmem hnumber
    exact ⟨text, by rw [amountRead, htext, error_map]⟩

theorem amountRead_of_unchosen (h : chosenValue? choices label = none) :
    amountRead choices label = .ok Decimal.one := by
  rw [amountRead, filter_of_unchosen h]
  rfl

theorem amountRead_firstChoices (choices : List Choice) (label : String) :
    amountRead (firstChoices choices) label =
      match chosenValue? choices label with
      | some first => first.number
      | none => .ok Decimal.one := by
  rw [amountRead, filter_firstChoices, chosenValue?]
  cases choices.find? (·.label = label) with
  | none => rfl
  | some c =>
    simp only [Option.toList_some, List.map_cons, List.map_nil, List.mapM_cons, List.mapM_nil,
      Option.map_some]
    cases c.value.number <;> rfl

theorem amountRead_of_settled (h : SettledOn choices label) :
    amountRead (firstChoices choices) label = amountRead choices label := by
  have hends := h.ends
  have hnumbers := h.numbers
  rw [amountRead_firstChoices, amountRead]
  simp only [lastValue?_eq_getLast?, chosenValue?_eq_head?] at hends hnumbers ⊢
  have hmem : ∀ l ∈ (choices.filter (·.label = label)).map (·.value),
      ∃ c ∈ choices, c.label = label ∧ c.value = l := by
    simp [and_assoc]
  generalize (choices.filter (·.label = label)).map (·.value) = values at hends hnumbers hmem ⊢
  cases values with
  | nil => rfl
  | cons first rest =>
    rw [List.head?_cons]
    cases hfirst : first.number with
    | error fault => simp [hfirst]
    | ok d =>
      -- the first is a number, so all are, and the last number is that of the first
      have hall : ∀ l ∈ first :: rest, ∃ e, l.number = .ok e := by
        intro l hl
        obtain ⟨c, hc, hlabel, rfl⟩ := hmem l hl
        exact hnumbers first d rfl hfirst c hc hlabel
      obtain ⟨ds, hds, hlast⟩ := mapM_number_of_forall hall
      rw [hends, List.head?_cons, Option.bind_some, hfirst] at hlast
      rw [hds, ok_map, List.getLastD_eq_getLast?, hlast]
      exact hfirst

theorem textRead_firstChoices {label : Option String}
    (h : ∀ l, label = some l → SettledOn choices l) :
    textRead (firstChoices choices) label = textRead choices label := by
  cases label with
  | none => rfl
  | some l => simp only [textRead, Option.bind_some, lastValue?_firstChoices, (h l rfl).ends]

theorem mem_readLabels_of_name {stock : Stock} {i : Nat} (hi : i < 2)
    (h : stock.multiplier.names[i]? = some label) : label ∈ stock.readLabels := by
  refine List.mem_cons_of_mem _ (List.mem_cons_of_mem _ (List.mem_of_getElem? (i := i) ?_))
  rw [List.getElem?_take_of_lt hi, h]

/-- Where the choices are settled on the labels that are read, the first ones are read as
    all of them are. -/
theorem ofChoices_firstChoices {stock : Stock}
    (h : ∀ label ∈ stock.readLabels, SettledOn choices label) :
    Reading.ofChoices stock (firstChoices choices) = Reading.ofChoices stock choices := by
  have hkey : ∀ l, some stock.dependsOn.name = some l → SettledOn choices l := by
    rintro l ⟨⟩
    exact h _ (by simp [Stock.readLabels])
  have hfirst : ∀ l, stock.multiplier.names[0]? = some l → SettledOn choices l :=
    fun l hl => h l (mem_readLabels_of_name (by decide) hl)
  have hsecond : ∀ l, secondName stock.multiplier.names = some l → SettledOn choices l :=
    fun l hl => h l (mem_readLabels_of_name (by decide) (secondName_eq_some_iff.1 hl).2)
  rw [ofChoices_eq, ofChoices_eq, amountRead_of_settled (h _ List.mem_cons_self),
    textRead_firstChoices hkey, textRead_firstChoices hfirst, textRead_firstChoices hsecond]

end Movement

end PointOfSale

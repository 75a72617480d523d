/-
  PointOfSale/Proofs/Pricing/Pairing.lean
  =======================================
  **What a field is paired with.**  The index of the choices answers as the row of
  choices does, first one first, so each field is paired with the value that
  `chosenValue?` finds for its label, and a dependency reads the choice for the
  label that it names.  Nothing else of the pairs enters a dependency: not how often or
  where a label stands in the schema (`pairByLabel_agrees_lookup`).
-/
import Mathlib.Data.List.Basic
import PointOfSale.Pricing

namespace PointOfSale

def FieldPair.ofChoices (choices : List Choice) (f : Field) : FieldPair :=
  ⟨f, chosenValue? choices f.label⟩

namespace FieldPair

@[simp] theorem field_ofChoices (choices : List Choice) (f : Field) :
    (ofChoices choices f).field = f := rfl

theorem getElem?_foldl_insertIfNew (choices : List Choice) (index : Std.HashMap String Literal)
    (label : String) :
    (choices.foldl (fun index c => index.insertIfNew c.label c.value) index)[label]? =
      (index[label]?).or (chosenValue? choices label) := by
  induction choices generalizing index with
  | nil => simp [chosenValue?]
  | cons c choices ih =>
    rw [List.foldl_cons, ih, Std.HashMap.getElem?_insertIfNew]
    by_cases hlabel : c.label = label
    · subst hlabel
      by_cases hmem : c.label ∈ index
      · simp [hmem]
      · simp [hmem, chosenValue?]
    · simp [hlabel, chosenValue?]

/-- Every field is paired with the first choice for its label. -/
theorem pairByLabel_eq (fields : List Field) (choices : List Choice) :
    pairByLabel fields choices = fields.map (ofChoices choices) := by
  simp only [pairByLabel, choiceIndex, getElem?_foldl_insertIfNew]
  refine List.map_congr_left fun f _ => ?_
  simp [ofChoices]

end FieldPair

/-- A dependency reads the choice for the field that it names, if there is such a field. -/
theorem PriceDependency.sourceChoice?_eq (d : PriceDependency) (fields : List Field)
    (choices : List Choice) :
    d.sourceChoice? (fields.map (FieldPair.ofChoices choices)) =
      if fields.any (·.label = d.source) then chosenValue? choices d.source else none := by
  induction fields with
  | nil => rfl
  | cons f fields ih =>
    by_cases hlabel : f.label = d.source
    · simp [sourceChoice?, FieldPair.label, FieldPair.ofChoices, hlabel]
    · rw [sourceChoice?] at ih ⊢
      simp only [List.map_cons, FieldPair.label, FieldPair.ofChoices, List.any_cons, hlabel,
        List.find?_cons, decide_false, Bool.false_or] at ih ⊢
      exact ih

/-! ### Pairs and single lookups -/

/-- The number of a dependency for the current choice, given what was chosen for the field
    that it names. -/
def PriceDependency.resolveFrom (d : PriceDependency) (current : String)
    (source? : Option Literal) : Except Fault Decimal :=
  match source?.bind fun source => (d.values.get? current).bind (·.get? source.text) with
  | some l => l.number
  | none => .ok unresolved

theorem PriceDependency.resolve_eq_resolveFrom (d : PriceDependency) (current : String)
    (pairs : List FieldPair) :
    d.resolve current pairs = d.resolveFrom current (d.sourceChoice? pairs) := rfl

/-- A dependency is resolved by one lookup in the choices. -/
theorem PriceDependency.resolve_pairByLabel (d : PriceDependency) (current : String)
    (fields : List Field) (s : Selection) :
    d.resolve current (FieldPair.pairByLabel fields s.choices) =
      d.resolveFrom current
        (if d.source ∈ fields.map (·.label) then s.valueOf? d.source else none) := by
  have hmem : (fields.any (·.label = d.source)) = decide (d.source ∈ fields.map (·.label)) := by
    rw [Bool.eq_iff_iff]
    simp
  rw [resolve_eq_resolveFrom, FieldPair.pairByLabel_eq, sourceChoice?_eq, hmem]
  simp only [decide_eq_true_eq]
  rfl

/-- **Pairing by label is looking each label up.**  Each field has one pair, in the order
    of the schema, with what a lookup of its label in the selection gives; so fields of one
    label have the same choice.  A dependency depends on whether the schema has the label that
    it names and on the first choice for that label, and on nothing else. -/
theorem pairByLabel_agrees_lookup (fields : List Field) (s : Selection) :
    (FieldPair.pairByLabel fields s.choices).map (fun p => (p.field, p.chosen)) =
      fields.map (fun f => (f, s.valueOf? f.label)) ∧
    (∀ p ∈ FieldPair.pairByLabel fields s.choices, ∀ q ∈ FieldPair.pairByLabel fields s.choices,
      p.label = q.label → p.chosen = q.chosen) ∧
    ∀ (d : PriceDependency) (current : String),
      d.resolve current (FieldPair.pairByLabel fields s.choices) =
        d.resolveFrom current
          (if d.source ∈ fields.map (·.label) then s.valueOf? d.source else none) ∧
      ∀ (other : List Field) (t : Selection),
        (d.source ∈ other.map (·.label) ↔ d.source ∈ fields.map (·.label)) →
        (d.source ∈ fields.map (·.label) → t.valueOf? d.source = s.valueOf? d.source) →
        d.resolve current (FieldPair.pairByLabel other t.choices) =
          d.resolve current (FieldPair.pairByLabel fields s.choices) := by
  refine ⟨?_, ?_, ?_⟩
  · rw [FieldPair.pairByLabel_eq, List.map_map]
    rfl
  · intro p hp q hq hlabel
    rw [FieldPair.pairByLabel_eq] at hp hq
    obtain ⟨f, -, rfl⟩ := List.mem_map.1 hp
    obtain ⟨g, -, rfl⟩ := List.mem_map.1 hq
    exact congrArg s.valueOf? hlabel
  · intro d current
    refine ⟨d.resolve_pairByLabel current fields s, ?_⟩
    intro other t hfields hchoice
    rw [d.resolve_pairByLabel, d.resolve_pairByLabel]
    by_cases hmem : d.source ∈ fields.map (·.label)
    · rw [if_pos hmem, if_pos (hfields.2 hmem), hchoice hmem]
    · rw [if_neg hmem, if_neg fun h => hmem (hfields.1 h)]

namespace Sample

/-- A cone whose sizes stand in the schema twice. -/
def cone : List Field :=
  [.selecting "Size" ["S", "L"], .selecting "Topping" ["Fudge"], .selecting "Size" ["S"]]

/-- A cone for which two sizes were chosen, and a napkin that no field asks for. -/
def coneOrder : Selection where
  itemId := .nil
  choices := [⟨"Topping", ⟨"Fudge"⟩⟩, ⟨"Size", ⟨"L"⟩⟩, ⟨"Napkin", ⟨"two"⟩⟩, ⟨"Size", ⟨"S"⟩⟩]

/-- The size alone. -/
def sizeOrder : Selection where
  itemId := .nil
  choices := [⟨"Size", ⟨"L"⟩⟩]

def toppingPrice : PriceDependency where
  source := "Size"
  values := .ofList [("Fudge", .ofList [("L", ⟨"1"⟩), ("S", ⟨"0.50"⟩)])]

end Sample

theorem pairByLabel_cone :
    (FieldPair.pairByLabel Sample.cone Sample.coneOrder.choices).map (·.chosen) =
        [some ⟨"L"⟩, some ⟨"Fudge"⟩, some ⟨"L"⟩] ∧
      Sample.toppingPrice.resolve "Fudge"
          (FieldPair.pairByLabel Sample.cone Sample.coneOrder.choices) = .ok .one ∧
      Sample.toppingPrice.resolve "Fudge"
          (FieldPair.pairByLabel [.selecting "Size" []] Sample.sizeOrder.choices) =
        .ok .one := by
  obtain ⟨hpairs, -, hresolve⟩ := pairByLabel_agrees_lookup Sample.cone Sample.coneOrder
  obtain ⟨hfrom, honly⟩ := hresolve Sample.toppingPrice "Fudge"
  have hprice : Sample.toppingPrice.resolve "Fudge"
      (FieldPair.pairByLabel Sample.cone Sample.coneOrder.choices) = .ok .one := by
    rw [hfrom]
    decide +kernel
  have hchosen := congrArg (List.map Prod.snd) hpairs
  rw [List.map_map] at hchosen
  refine ⟨hchosen.trans (by decide), hprice, ?_⟩
  rw [honly [.selecting "Size" []] Sample.sizeOrder (by decide) (by decide), hprice]

end PointOfSale

/-
  PointOfSale/Proofs/Catalog/Rates.lean
  =====================================
  **Which tax rates survive a catalog.**  A rate is written as a floating-point number and
  read back from its text.  A rate of few digits comes back as the same number
  (`IsBrief.exists_reread?`), whatever the other items of the catalog are; and a catalog
  with such rates only can always be read again.  Whatever comes back has at most seventeen
  digits, so no longer rate comes back (`isShort_of_reread?`).
-/
import PointOfSale.Proofs.Catalog
import PointOfSale.Proofs.Decimal.Binary64
import PointOfSale.Proofs.Pricing.Rates

namespace PointOfSale

/-! ### Rates -/

/-- **A decimal of few digits keeps its value through its text.** -/
theorem Decimal.IsBrief.exists_reread? {d : Decimal} (h : d.IsBrief) :
    ∃ r, d.reread? = some r ∧ r.value = d.value := by
  obtain ⟨x, hx, hsent⟩ := h.exists_toBinary64
  obtain ⟨r, hr, hvalue⟩ := exists_ofBinary64? h.magnitude_lt h.scale_le hx d.negative
  refine ⟨r, ?_, by rw [hvalue, value_eq, coeff]⟩
  have hread := Figure.reread?_real h.magnitude_lt h.scale_le hx d.negative
  rw [reread?, toJson, hsent, Json.ofString?_prettyText_number, hread, Option.bind_some]
  exact hr

/-- **What is read from the text of a decimal has at most seventeen digits.** -/
theorem Decimal.isShort_of_reread? {d r : Decimal} (h : d.reread? = some r) : r.IsShort := by
  rw [reread?, toJson, Json.ofString?_prettyText_number] at h
  rcases Figure.reread?_real_or d.toBinary64 with ⟨x, hx⟩ | hunusable
  · rw [hx, Option.bind_some] at h
    exact isShort_of_ofBinary64? h
  · rw [hunusable] at h
    cases h

/-- One digit more, and another number may come back. -/
example : (⟨false, 8000000000000001, 15, by decide, by decide⟩ : Decimal).reread? =
    some ⟨false, 8000000000000002, 15, by decide, by decide⟩ := by decide +kernel

/-- The same with one place more. -/
example : (⟨false, 999999999999989, 23, by decide, by decide⟩ : Decimal).reread? =
    some ⟨false, 9999999999999893, 24, by decide, by decide⟩ := by decide +kernel

/-! ### Items -/

namespace Item

/-- An item without a tax rate, or with one of few digits. -/
def HasBriefRate (item : Item) : Prop := ∀ rate, item.taxRate = some rate → rate.IsBrief

theorem HasBriefRate.keepsRate {item : Item} (h : item.HasBriefRate) : item.KeepsRate :=
  fun rate hrate => (h rate hrate).exists_reread?

theorem HasBriefRate.reread?_eq {item : Item} (h : item.HasBriefRate) :
    item.reread? = some item.reread := by
  apply reread?_of_rates
  intro rate hrate
  obtain ⟨r, hr, -⟩ := h.keepsRate rate hrate
  exact ⟨r, hr⟩

/-- An item without a tax rate, or with one of at most seventeen digits. -/
def HasShortRate (item : Item) : Prop := ∀ rate, item.taxRate = some rate → rate.IsShort

/-- Nothing but its tax rate can change where an item is read back. -/
theorem eq_of_reread? {item read : Item} (h : item.reread? = some read) :
    read = { item with taxRate := read.taxRate } := by
  obtain ⟨rate, -, rfl⟩ := Option.map_eq_some_iff.1 h
  rfl

theorem Agrees.taxedAlike {a b : Item} (h : a.Agrees b) : a.TaxedAlike b := by
  refine taxedAlike_of_rates ?_ h.same_rate
  rw [h.same_but_rate]

theorem agrees_of_reread? {item read : Item} (hbrief : item.HasBriefRate)
    (h : item.reread? = some read) : item.Agrees read := by
  rw [hbrief.reread?_eq] at h
  cases h
  exact agrees_reread hbrief.keepsRate

/-- **A rate that survives is not long.** -/
theorem hasShortRate_of_agrees {item read : Item} (h : item.reread? = some read)
    (hagrees : item.Agrees read) : item.HasShortRate := by
  intro rate hrate
  obtain ⟨r, hr, hread⟩ := Option.map_eq_some_iff.1 h
  rw [hrate, rereadRate?] at hr
  obtain ⟨d, hd, rfl⟩ := Option.map_eq_some_iff.1 hr
  have hvalue : some d.value = some rate.value := by
    have hsame := hagrees.same_rate
    rwa [hrate, ← hread] at hsame
  rw [Decimal.IsShort, ← Option.some.inj hvalue]
  exact Decimal.isShort_of_reread? hd

end Item

/-! ### Rows side by side -/

theorem exists_mem_of_forall₂ {α β : Type} {R : α → β → Prop} {as : List α} {bs : List β}
    (h : List.Forall₂ R as bs) {a : α} (ha : a ∈ as) : ∃ b ∈ bs, R a b := by
  induction h with
  | nil => cases ha
  | @cons c b cs bs hcb hrest ih =>
    rcases List.mem_cons.1 ha with rfl | ha
    · exact ⟨b, List.mem_cons_self, hcb⟩
    · obtain ⟨e, he, hae⟩ := ih ha
      exact ⟨e, List.mem_cons_of_mem b he, hae⟩

theorem forall₂_of_mapM {α β : Type} {f : α → Option β} {as : List α} {bs : List β}
    (h : as.mapM f = some bs) : List.Forall₂ (fun a b => f a = some b) as bs := by
  induction as generalizing bs with
  | nil =>
    cases h
    exact .nil
  | cons a as ih =>
    rw [List.mapM_cons] at h
    obtain ⟨b, hb, hrest⟩ := Option.bind_eq_some_iff.1 h
    obtain ⟨bs, hbs, hcons⟩ := Option.bind_eq_some_iff.1 hrest
    cases hcons
    exact .cons hb (ih hbs)

/-! ### Catalogs -/

namespace Catalog

/-- What is read from the text of a catalog are its items, each with the rate that its own
    is read as. -/
theorem forall₂_reread {items loaded : List Item} (h : ofText? (text items) = some loaded) :
    List.Forall₂ (fun item read => item.reread? = some read) items loaded := by
  rw [ofText?_text_eq] at h
  exact forall₂_of_mapM h

theorem exists_ofText?_of_brief {items : List Item} (h : ∀ item ∈ items, item.HasBriefRate) :
    ∃ loaded, ofText? (text items) = some loaded := by
  refine ⟨items.map Item.reread, ofText?_text ?_⟩
  intro item hitem rate hrate
  obtain ⟨r, hr, -⟩ := (h item hitem).keepsRate rate hrate
  exact ⟨r, hr⟩

end Catalog

end PointOfSale

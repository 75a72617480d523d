/-
  PointOfSale/Proofs/Catalog.lean
  ===============================
  **Catalogs are read back as they were written.**  An item is restored from its JSON
  except for its tax rate, which is written as a floating-point number: the rate that is
  read is the one that the text of that number gives (`Decimal.reread?`).  So a catalog
  is read back with the same items in the same order, and with the same rates where
  these keep through their text.  That holds of the text, and of a file that is saved
  and loaded.
-/
import PointOfSale.Catalog
import PointOfSale.Proofs.Decimal.Value
import PointOfSale.Proofs.Files
import PointOfSale.Proofs.Json.Real
import PointOfSale.Proofs.Wire.Menu

namespace PointOfSale

open Json (IsSteady Restores fields? member? membersUnder required restores_string restores_int64
  restores_uint64)

/-! ### Tax rates -/

/-- The decimal that is read from the text of a decimal: through a floating-point number
    and its shortest digits. -/
def Decimal.reread? (d : Decimal) : Option Decimal :=
  (Json.ofString? d.toJson.prettyText).bind ofJson?

theorem Decimal.exists_json_reread? (d : Decimal) :
    ∃ j, Json.reread? d.toJson = some j ∧ j ≠ .null ∧ ofJson? j = d.reread? := by
  obtain ⟨j, hj, hnull⟩ := Figure.exists_reread?_real d.toBinary64
  refine ⟨j, hj, hnull, ?_⟩
  rw [reread?, toJson, Json.ofString?_prettyText_number, hj, Option.bind_some]

/-- The rate that is read from the text of a rate or of the lack of one. -/
def rereadRate? : Option Decimal → Option (Option Decimal)
  | none => some none
  | some rate => rate.reread?.map some

theorem exists_json_rereadRate? (rate? : Option Decimal) :
    ∃ j, Json.reread? (Json.ofOption Decimal.toJson rate?) = some j ∧
      Json.nullable? Decimal.ofJson? j = rereadRate? rate? := by
  cases rate? with
  | none => exact ⟨.null, rfl, rfl⟩
  | some rate =>
    obtain ⟨j, hj, hnull, hread⟩ := rate.exists_json_reread?
    refine ⟨j, hj, ?_⟩
    rw [Json.nullable?, hread, rereadRate?]
    exact hnull

/-! ### Items -/

namespace Item

/-- The item with the tax rate that is read from the text of its own. -/
def reread (item : Item) : Item := { item with taxRate := item.taxRate.bind Decimal.reread? }

/-- Two items differ in nothing but the scale of their tax rates. -/
structure Agrees (a b : Item) : Prop where
  same_but_rate : b = { a with taxRate := b.taxRate }
  same_rate : b.taxRate.map Decimal.value = a.taxRate.map Decimal.value

/-- The tax rate of an item keeps its value through its text. -/
def KeepsRate (item : Item) : Prop :=
  ∀ rate, item.taxRate = some rate → ∃ r, rate.reread? = some r ∧ r.value = rate.value

theorem reread_eq_self {item : Item}
    (h : ∀ rate, item.taxRate = some rate → rate.reread? = some rate) : item.reread = item := by
  have hrate : item.taxRate.bind Decimal.reread? = item.taxRate := by
    cases hitem : item.taxRate with
    | none => rfl
    | some rate => rw [Option.bind_some, h rate hitem]
  rw [reread, hrate]

theorem agrees_reread {item : Item} (h : item.KeepsRate) : item.Agrees item.reread := by
  have hrate : (item.taxRate.bind Decimal.reread?).map Decimal.value =
      item.taxRate.map Decimal.value := by
    cases hitem : item.taxRate with
    | none => rfl
    | some rate =>
      obtain ⟨r, hr, hvalue⟩ := h rate hitem
      rw [Option.bind_some, hr, Option.map_some, Option.map_some, hvalue]
  rw [reread]
  exact ⟨rfl, hrate⟩

/-- The item that is read from the text of an item: with the rate that its own is read
    as. -/
def reread? (item : Item) : Option Item :=
  (rereadRate? item.taxRate).map fun rate => { item with taxRate := rate }

theorem reread?_of_rates {item : Item}
    (h : ∀ rate, item.taxRate = some rate → ∃ r, rate.reread? = some r) :
    item.reread? = some item.reread := by
  rw [reread?, reread]
  cases hitem : item.taxRate with
  | none => rfl
  | some rate =>
    obtain ⟨r, hr⟩ := h rate hitem
    rw [rereadRate?, hr, Option.bind_some, hr]
    rfl

theorem exists_json_reread? (item : Item) :
    ∃ j, Json.reread? item.toJson = some j ∧ ofJson? j = item.reread? := by
  obtain ⟨rate, hrate, hread⟩ := exists_json_rereadRate? item.taxRate
  have hcategory := restores_int64.option fun _ => nofun
  have hfields := Field.restores.list
  refine ⟨.object [("id", item.id.toJson),
    ("name", .string item.name),
    ("category_id", Json.ofOption (fun c : Int64 => Json.int c.toInt) item.categoryId),
    ("form_cfg", Json.ofList Field.toJson item.fields),
    ("tax_rate", rate),
    ("inventory", item.stock.toJson),
    ("inventory_version", Json.nat item.version.toNat)], ?_, ?_⟩
  · have hid : Json.reread? item.id.toJson = some item.id.toJson := Uuid.restores.steady item.id
    have hcategoryId := hcategory.steady item.categoryId
    have hfieldList := hfields.steady item.fields
    have hstock := Stock.restores.steady item.stock
    have hversion := restores_uint64.steady item.version
    rw [IsSteady] at hcategoryId hfieldList hstock hversion
    simp only [toJson, Json.reread?, Json.membersReread?, hid, hcategoryId, hfieldList,
      hstock, hversion, hrate, Option.bind_some, Option.map_some]
  · simp only [ofJson?, reread?]
    cases hrest : rereadRate? item.taxRate <;>
      simp [fields?, member?, membersUnder, required, Json.optional, Uuid.restores.read,
        restores_string.read, hcategory.read, hfields.read, hread, hrest, Stock.restores.read,
        restores_uint64.read]

end Item

/-! ### Catalogs -/

namespace Catalog

/-- **A catalog is read back item for item**, if each of its items is. -/
theorem ofText?_text_eq (items : List Item) : ofText? (text items) = items.mapM Item.reread? := by
  obtain ⟨js, hjs, hread⟩ : ∃ js, Json.itemsReread? (items.map Item.toJson) = some js ∧
      js.mapM Item.ofJson? = items.mapM Item.reread? := by
    induction items with
    | nil => exact ⟨[], rfl, rfl⟩
    | cons item items ih =>
      obtain ⟨js, hjs, hread⟩ := ih
      obtain ⟨j, hj, hitem⟩ := item.exists_json_reread?
      refine ⟨j :: js, ?_, ?_⟩
      · rw [List.map_cons, Json.itemsReread?, hj, Option.bind_some, hjs, Option.map_some]
      · rw [List.mapM_cons, List.mapM_cons, hitem, hread]
  have harray : Json.reread? (Json.ofList Item.toJson items) = some (.array js) := by
    rw [Json.ofList, Json.reread?, hjs, Option.map_some]
  rw [ofText?, text, Json.ofString?_prettyText harray, Option.bind_some, Json.list?, hread]

/-- A catalog whose rates can be read from their text is read back. -/
theorem ofText?_text {items : List Item}
    (h : ∀ item ∈ items, ∀ rate, item.taxRate = some rate → ∃ r, rate.reread? = some r) :
    ofText? (text items) = some (items.map Item.reread) := by
  rw [ofText?_text_eq]
  induction items with
  | nil => rfl
  | cons item items ih =>
    have hrest := ih fun i hi => h i (List.mem_cons_of_mem item hi)
    rw [List.mapM_cons, Item.reread?_of_rates (h item List.mem_cons_self), hrest]
    rfl

section Files

variable {σ : Type} [Files (StateM σ)]

theorem run_load (path : String) (s : σ) :
    (load (m := StateM σ) path).run.run s =
      (match ((Files.read path : StateM σ _).run s).1 with
        | .ok text =>
          match ofText? text with
          | some items => .ok items
          | none => .error .malformed
        | .error fault => .error (.inaccessible fault),
      ((Files.read path : StateM σ _).run s).2) := by
  rw [load, run_lift_bind]
  cases ((Files.read path : StateM σ _).run s).1 with
  | error fault => rfl
  | ok text =>
    dsimp only
    cases ofText? text <;> rfl

theorem run_save (path : String) (items : List Item) (s : σ) :
    (save (m := StateM σ) path items).run.run s =
      (((Files.write path (text items) : StateM σ _).run s).1.mapError .inaccessible,
        ((Files.write path (text items) : StateM σ _).run s).2) := by
  rw [save, run_lift_bind]
  cases ((Files.write path (text items) : StateM σ _).run s).1 <;> rfl

end Files

/-- A file that is saved is loaded as its text is read. -/
theorem load_of_save {disk after : Disk} {path : String} {items loaded : List Item}
    (hsave : (save (m := StateM Disk) path items).run.run disk = (.ok (), after))
    (hread : ofText? (text items) = some loaded) :
    (load (m := StateM Disk) path).run.run after = (.ok loaded, after) := by
  have hwrite : disk.write path (text items) = .ok after := by
    rw [run_save, Disk.run_write] at hsave
    cases hdisk : disk.write path (text items) with
    | error fault =>
      rw [hdisk] at hsave
      cases hsave
    | ok written =>
      rw [hdisk] at hsave
      cases hsave
      rfl
  rw [run_load, Disk.run_read, Disk.read_of_write hwrite]
  dsimp only
  rw [hread]

/-- **A catalog is read back with the same items in the same order**, from its text and
    from a file, if each tax rate keeps its value through its text; and it is the very
    same catalog if each rate keeps its scale too. -/
theorem exists_reread_agrees (items : List Item) (h : ∀ item ∈ items, item.KeepsRate) :
    ∃ loaded, ofText? (text items) = some loaded ∧ List.Forall₂ Item.Agrees items loaded ∧
      ((∀ item ∈ items, ∀ rate, item.taxRate = some rate → rate.reread? = some rate) →
        loaded = items) ∧
      ∀ (disk after : Disk) (path : String),
        (save (m := StateM Disk) path items).run.run disk = (.ok (), after) →
          (load (m := StateM Disk) path).run.run after = (.ok loaded, after) := by
  have hread : ofText? (text items) = some (items.map Item.reread) := by
    apply ofText?_text
    intro item hitem rate hrate
    obtain ⟨r, hr, -⟩ := h item hitem rate hrate
    exact ⟨r, hr⟩
  refine ⟨items.map Item.reread, hread, ?_, ?_, ?_⟩
  · rw [List.forall₂_map_right_iff, List.forall₂_same]
    intro item hitem
    exact Item.agrees_reread (h item hitem)
  · intro hexact
    have hmap : items.map Item.reread = items.map id := by
      apply List.map_congr_left
      intro item hitem
      exact Item.reread_eq_self (hexact item hitem)
    rw [hmap, List.map_id]
  · intro disk after path hsave
    exact load_of_save hsave hread

namespace Sample

/-- A rate with a fraction. -/
def rate : Decimal := ⟨false, 8125, 3, by decide, by decide⟩

/-- A dish whose texts have quotes, control characters and other scripts, with a field
    that depends on another and multipliers of both kinds. -/
def soup : Item where
  id := .ofNat 7
  name := "Suppe \"für 2\" \\ 🍲\n\x01"
  categoryId := some (-3)
  fields := [.selecting "Größe" ["", "大"],
    { label := "Größe"
      kind := .other
      placeholder := some "\t…"
      pricing := {
        priceBy := .dependency
        dependsOn := some ⟨"Größe", .ofList [("大", .ofList [("", ⟨"1/2"⟩)]), ("", ∅)]⟩ } }]
  taxRate := some rate
  stock := {
    isTracked := true
    dependsOn := ⟨"Größe", .ofList [("大", ⟨" 3 "⟩)]⟩
    multiplier := ⟨["Größe"], .ofList [("大", .nested ∅), ("", .flat ⟨"null"⟩)]⟩ }
  version := 12

/-- An item of which nothing is given. -/
def bread : Item := { id := .nil, name := "" }

end Sample

theorem exists_reread_agrees_soup :
    Sample.soup.KeepsRate ∧
      ofText? (text [Sample.soup, Sample.bread]) = some [Sample.soup, Sample.bread] := by
  have hrate : Sample.rate.reread? = some Sample.rate := by decide +kernel
  have hsoup : Sample.soup.KeepsRate := by
    rintro _ ⟨⟩
    exact ⟨Sample.rate, hrate, rfl⟩
  refine ⟨hsoup, ?_⟩
  have hkeeps : ∀ item ∈ [Sample.soup, Sample.bread], item.KeepsRate := by
    simp only [List.forall_mem_cons]
    exact ⟨hsoup, nofun, nofun⟩
  obtain ⟨loaded, hread, -, hexact, -⟩ := exists_reread_agrees _ hkeeps
  rw [hread, hexact]
  simp only [List.forall_mem_cons]
  refine ⟨?_, nofun, nofun⟩
  rintro _ ⟨⟩
  exact hrate

end Catalog

end PointOfSale

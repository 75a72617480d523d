/-
  PointOfSale/Proofs/CommandLine/Taxes.lean
  =========================================
  **What a rewrite of the catalog does to taxes.**  A run that adjusts stock leaves the
  catalog file as it was or writes all items to it, changed in stock and version only.  So
  an item whose tax rate has few digits is taxed alike before and after
  (`taxedAlike_of_rewrite`).  A rate of more digits may come back as another number, and
  then its item is taxed differently (`paddedRate_rewritten`).
-/
import PointOfSale.Proofs.Catalog.Rates
import PointOfSale.Proofs.CommandLine.Adjust

namespace PointOfSale

/-! ### Stores -/

/-- Two items differ in nothing but their stock and its version. -/
def Item.SameTerms (a b : Item) : Prop := b = { a with stock := b.stock, version := b.version }

namespace Item.SameTerms

variable {a b c : Item}

theorem refl (a : Item) : a.SameTerms a := rfl

theorem taxRate_eq (h : a.SameTerms b) : b.taxRate = a.taxRate := by rw [h]

theorem hasBriefRate (h : a.SameTerms b) (hbrief : a.HasBriefRate) : b.HasBriefRate := by
  rw [HasBriefRate, h.taxRate_eq]
  exact hbrief

theorem taxedAlike_trans (h : a.SameTerms b) (hread : b.Agrees c) : a.TaxedAlike c := by
  apply taxedAlike_of_rates
  · rw [hread.same_but_rate, h]
  · rw [hread.same_rate, h.taxRate_eq]

end Item.SameTerms

/-- **A call leaves every item of the store**, changed in stock and version only. -/
theorem Call.sameTerms_of_run {α : Type} {call : Call α} {store after : ItemStore} {answer : α}
    (h : call.run store = .ok (answer, after)) :
    List.Forall₂ Item.SameTerms store.items after.items := by
  obtain ⟨item, stock, hitem, -, rfl⟩ := run_eq_ok_iff.1 h
  unfold written
  split
  · dsimp only [ItemStore.replace, ItemStore.replaceIn]
    rw [List.forall₂_map_right_iff, List.forall₂_same]
    intro i hi
    split
    · rename_i hid
      -- only the item that was evaluated has its identifier
      obtain rfl : i = item := by
        have hfirst := ItemStore.mem_of_get? hitem
        exact List.inj_on_of_nodup_map store.distinct hi hfirst hid
      rfl
    · exact .refl i
  · rw [List.forall₂_same]
    exact fun i _ => .refl i

namespace CommandLine

/-! ### Runs -/

/-- A run that commits tries one write of the catalog, with the items of the store that the
    adjustment leaves. -/
theorem Adjustment.Found.log_of_call {a : Adjustment} {args : List String} {env : Environment}
    {log : LoggedDisk} {op : Operation} {amounts : Table AmountTable} {store : ItemStore}
    (h : a.Found args env log) (hparse : Operation.parse a.token = .ok op)
    (hcommits : a.commits = true)
    (hcall : (a.settings.desk.adjust a.id a.selections op true).run (.ofList a.items) =
      .ok (amounts, store)) :
    (runOn args env log).2 = (log.write a.catalog (Catalog.text store.snapshot)).2 := by
  obtain ⟨path, hread, hrun⟩ := h.runOn_eq
  rw [hrun, run_carryOut_adjust hread, hparse, hcommits]
  dsimp only
  rw [hcall]
  rfl

/-- A run that adjusts stock leaves the disk as it is, or tries one write of the catalog,
    with every item of the store changed in stock and version only. -/
theorem Adjustment.Found.log_runOn {a : Adjustment} {args : List String} {env : Environment}
    {log : LoggedDisk} (h : a.Found args env log) :
    (runOn args env log).2 = log ∨
      ∃ store : ItemStore, List.Forall₂ Item.SameTerms (ItemStore.ofList a.items).items store.items ∧
        (runOn args env log).2 = (log.write a.catalog (Catalog.text store.snapshot)).2 := by
  obtain ⟨path, hread, hrun⟩ := h.runOn_eq
  cases hparse : Operation.parse a.token with
  | error fault =>
    rw [hrun, run_carryOut_adjust hread, hparse]
    exact .inl rfl
  | ok op =>
    cases hcall : (a.settings.desk.adjust a.id a.selections op a.commits).run
        (.ofList a.items) with
    | error fault =>
      rw [hrun, run_carryOut_adjust hread, hparse]
      dsimp only
      rw [hcall]
      exact .inl rfl
    | ok r =>
      cases hcommits : a.commits with
      | false =>
        rw [hrun, run_carryOut_adjust hread, hparse]
        dsimp only
        rw [hcall, hcommits]
        exact .inl rfl
      | true =>
        rw [hcommits] at hcall
        exact .inr ⟨r.2, Call.sameTerms_of_run hcall, h.log_of_call hparse hcommits hcall⟩

/-- The file that is written is read as its text, or the write has failed and left it. -/
theorem read_write (log : LoggedDisk) (path text : String) :
    (log.write path text).2.disk.read path = .ok text ∨ (log.write path text).2.disk = log.disk := by
  unfold LoggedDisk.write
  cases hwrite : log.disk.write path text with
  | ok after => exact .inl (Disk.read_of_write hwrite)
  | error fault => exact .inr rfl

/-! ### Items of a file -/

/-- The items that a file hands out, by their identifiers, are taxed alike by a text, where
    their rates have few digits; and if all rates have, the text is a catalog. -/
structure KeepsTaxes (items : List Item) (text : String) : Prop where
  taxed : ∀ loaded, Catalog.ofText? text = some loaded →
    ∀ id item, (ItemStore.ofList items).get? id = some item → item.HasBriefRate →
      ∃ read, (ItemStore.ofList loaded).get? id = some read ∧ item.TaxedAlike read
  readable : (∀ item ∈ items, item.HasBriefRate) → ∃ loaded, Catalog.ofText? text = some loaded

theorem keepsTaxes_of_ofText? {text : String} {items : List Item}
    (h : Catalog.ofText? text = some items) : KeepsTaxes items text := by
  constructor
  · intro loaded hloaded id item hitem _
    obtain rfl : items = loaded := Option.some.inj (h.symm.trans hloaded)
    exact ⟨item, hitem, Item.taxedAlike_of_rates rfl rfl⟩
  · exact fun _ => ⟨items, h⟩

/-- Items that were changed in stock and version only, in any order. -/
theorem keepsTaxes_of_snapshot {items : List Item} {store : ItemStore}
    (h : List.Forall₂ Item.SameTerms (ItemStore.ofList items).items store.items) :
    KeepsTaxes items (Catalog.text store.snapshot) := by
  have hperm := store.snapshot_perm
  constructor
  · intro loaded hloaded id item hitem hbrief
    have hreads := Catalog.forall₂_reread hloaded
    have hids : (loaded.map (·.id)).Nodup := by
      have hsame : List.Forall₂ (· = ·) (store.snapshot.map (·.id)) (loaded.map (·.id)) :=
        List.rel_map (fun a b hread => by rw [Item.eq_of_reread? hread]) hreads
      rw [List.forall₂_eq_eq_eq] at hsame
      rw [← hsame]
      exact store.nodup_snapshot
    -- the item as it was left, and as it is read
    obtain ⟨left, hleft, hterms⟩ := exists_mem_of_forall₂ h (ItemStore.mem_of_get? hitem)
    obtain ⟨read, hmem, hread⟩ := exists_mem_of_forall₂ hreads (hperm.mem_iff.2 hleft)
    have hagrees := Item.agrees_of_reread? (hterms.hasBriefRate hbrief) hread
    refine ⟨read, ?_, hterms.taxedAlike_trans hagrees⟩
    have hid : read.id = id := by
      rw [Item.eq_of_reread? hread, ← ItemStore.id_of_get? hitem, hterms]
    rw [← hid]
    exact ItemStore.get?_ofList_of_mem hids hmem
  · intro hbrief
    apply Catalog.exists_ofText?_of_brief
    intro left hleft
    obtain ⟨item, hitem, hterms⟩ := exists_mem_of_forall₂ h.flip (hperm.mem_iff.1 hleft)
    exact Item.SameTerms.hasBriefRate hterms (hbrief item (ItemStore.mem_of_mem_ofList hitem))

/-- **Tax rates of few digits survive a rewrite of the catalog.**  Items are read back from
    their text with every such rate as the same number and its item taxed alike, and no rate
    of more than seventeen digits as the same number; with rates of few digits only they can
    always be read, also from a file that is saved.  And whatever a run that adjusts their
    stock comes to, the file that it leaves hands out every item that the file handed out
    before, taxed alike if its rate has few digits. -/
theorem taxedAlike_of_rewrite (items : List Item) :
    (∀ loaded, Catalog.ofText? (Catalog.text items) = some loaded →
      List.Forall₂ (fun item read =>
          (item.HasBriefRate → item.Agrees read ∧ item.TaxedAlike read) ∧
            (item.Agrees read → item.HasShortRate))
        items loaded) ∧
    ((∀ item ∈ items, item.HasBriefRate) →
      ∃ loaded, Catalog.ofText? (Catalog.text items) = some loaded ∧
        ∀ (disk after : Disk) (path : String),
          (Catalog.save (m := StateM Disk) path items).run.run disk = (.ok (), after) →
            (Catalog.load (m := StateM Disk) path).run.run after = (.ok loaded, after)) ∧
    ∀ (a : Adjustment) (args : List String) (env : Environment) (log : LoggedDisk),
      a.items = items → a.Found args env log →
        ∃ text, (runOn args env log).2.disk.read a.catalog = .ok text ∧ KeepsTaxes items text := by
  refine ⟨?_, ?_, ?_⟩
  · intro loaded hloaded
    refine (Catalog.forall₂_reread hloaded).imp ?_
    intro item read hread
    refine ⟨?_, Item.hasShortRate_of_agrees hread⟩
    intro hbrief
    have hagrees := Item.agrees_of_reread? hbrief hread
    exact ⟨hagrees, hagrees.taxedAlike⟩
  · intro hbrief
    obtain ⟨loaded, hloaded⟩ := Catalog.exists_ofText?_of_brief hbrief
    exact ⟨loaded, hloaded, fun disk after path hsave => Catalog.load_of_save hsave hloaded⟩
  · rintro a args env log rfl h
    obtain ⟨found, hfound, hitems⟩ := h.catalog
    have hunchanged : ∀ after : LoggedDisk, after.disk = log.disk →
        ∃ text, after.disk.read a.catalog = .ok text ∧ KeepsTaxes a.items text := by
      intro after hsame
      exact ⟨found, by rw [hsame, hfound], keepsTaxes_of_ofText? hitems⟩
    rcases h.log_runOn with hlog | ⟨store, hterms, hlog⟩
    · rw [hlog]
      exact hunchanged log rfl
    · rw [hlog]
      rcases read_write log a.catalog (Catalog.text store.snapshot) with hread | hfailed
      · exact ⟨_, hread, keepsTaxes_of_snapshot hterms⟩
      · exact hunchanged _ hfailed

namespace Sample

/-- A cake for thirty, at a tax rate in percent. -/
def cake (rate : Decimal) : Item where
  id := .ofNat 7
  name := "Cake"
  fields := [{
    label := "Price"
    pricing := { isBasePrice := true, priceBy := .constant, constant := ⟨"30"⟩ } }]
  taxRate := some rate

/-- A rate of 7.25 with zeros at its end. -/
def paddedRate : Decimal := ⟨false, 7250000000000000000000, 21, by decide, by decide⟩

/-- A rate just below it. -/
def rewrittenRate : Decimal := ⟨false, 7249999999999999, 15, by decide, by decide⟩

/-- A catalog with the cake at the padded rate, which is given as a text. -/
def paddedRateJson : Json :=
  .array [.object [("id", (Uuid.ofNat 7).toJson), ("name", .string "Cake"),
    ("form_cfg", Json.ofList Field.toJson (cake paddedRate).fields),
    ("tax_rate", .string "7.250000000000000000000")]]

def paddedRateMenu : String := paddedRateJson.prettyText

theorem ofText?_cake {rate read : Decimal} (h : rate.reread? = some read) :
    Catalog.ofText? (Catalog.text [cake rate]) = some [cake read] := by
  have hrate : ∀ r, (cake rate).taxRate = some r → ∃ r', r.reread? = some r' := by
    rintro _ ⟨⟩
    exact ⟨read, h⟩
  have hreread : (cake rate).reread = cake read := by
    rw [Item.reread, cake, Option.bind_some, h]
    rfl
  rw [Catalog.ofText?_text (List.forall_mem_singleton.2 hrate), List.map_singleton, hreread]

theorem ofText?_paddedRateMenu : Catalog.ofText? paddedRateMenu = some [cake paddedRate] := by
  obtain ⟨j, hj, hitems⟩ : ∃ j, Json.reread? paddedRateJson = some j ∧
      Json.list? Item.ofJson? j = some [cake paddedRate] := ⟨_, rfl, by decide +kernel⟩
  rw [Catalog.ofText?, paddedRateMenu, Json.ofString?_prettyText hj, Option.bind_some, hitems]

end Sample

theorem taxedAlike_of_rewrite_cake :
    ∃ text loaded read,
      (runOn Sample.arguments []
        { disk := Sample.disk (Catalog.text [Sample.cake Catalog.Sample.rate]) }).2.disk.read
          "menu.json" = .ok text ∧
      Catalog.ofText? text = some loaded ∧ (ItemStore.ofList loaded).get? (.ofNat 7) = some read ∧
      (Sample.cake Catalog.Sample.rate).TaxedAlike read := by
  have hmenu : Catalog.ofText? (Catalog.text [Sample.cake Catalog.Sample.rate]) =
      some [Sample.cake Catalog.Sample.rate] := Sample.ofText?_cake (by decide +kernel)
  have hfound := Sample.found_saleOf hmenu (by decide +kernel)
  have hbrief : (Sample.cake Catalog.Sample.rate).HasBriefRate := by
    rintro _ ⟨⟩
    decide
  obtain ⟨text, htext, hkeeps⟩ := (taxedAlike_of_rewrite _).2.2 _ _ _ _ rfl hfound
  obtain ⟨loaded, hloaded⟩ := hkeeps.readable (List.forall_mem_singleton.2 hbrief)
  obtain ⟨read, hread, htaxed⟩ := hkeeps.taxed loaded hloaded (.ofNat 7) _ (by decide) hbrief
  exact ⟨text, loaded, read, htext, hloaded, hread, htaxed⟩

/-- **A rate of more digits may not survive.**  A run that adjusts stock reads a rate with
    zeros at its end and leaves a file with a lower rate, by which the cake is taxed less. -/
theorem paddedRate_rewritten :
    Catalog.ofText? Sample.paddedRateMenu = some [Sample.cake Sample.paddedRate] ∧
      ∃ text, (runOn Sample.arguments [] { disk := Sample.disk Sample.paddedRateMenu }).2.disk.read
          "menu.json" = .ok text ∧
        Catalog.ofText? text = some [Sample.cake Sample.rewrittenRate] ∧
        Sample.rewrittenRate.value ≠ Sample.paddedRate.value ∧
        (Sample.sale.settings.desk.price (Sample.cake Sample.paddedRate) []).toOption.map (·.tax) =
          some ⟨false, 218, 2, by decide, by decide⟩ ∧
        (Sample.sale.settings.desk.price (Sample.cake Sample.rewrittenRate) []).toOption.map
            (·.tax) = some ⟨false, 217, 2, by decide, by decide⟩ := by
  have hmenu := Sample.ofText?_paddedRateMenu
  refine ⟨hmenu, Catalog.text [Sample.cake Sample.paddedRate], ?_,
    Sample.ofText?_cake (by decide +kernel), by decide +kernel, by decide +kernel,
    by decide +kernel⟩
  have hitem : (ItemStore.ofList [Sample.cake Sample.paddedRate]).get? Sample.sale.id =
      some (Sample.cake Sample.paddedRate) := by decide
  -- the stock of the cake is not tracked, so the store is left as it was
  have hcall : (Sample.sale.settings.desk.adjust Sample.sale.id Sample.sale.selections .subtract
      true).run (.ofList [Sample.cake Sample.paddedRate]) =
        .ok (∅, .ofList [Sample.cake Sample.paddedRate]) := by
    rw [Desk.run_adjust _ _ _ hitem, Ledger.evaluate_of_untracked _ _ _ rfl, ok_bind,
      Call.written_of_untracked _ _ _ rfl]
    rfl
  have hlog := (Sample.found_saleOf hmenu (by decide +kernel)).log_of_call rfl rfl hcall
  have hsnapshot : (ItemStore.ofList [Sample.cake Sample.paddedRate]).snapshot =
      [Sample.cake Sample.paddedRate] := List.mergeSort_singleton _
  have hplace : (Sample.disk Sample.paddedRateMenu).locate "menu.json" = .ok ["menu.json"] :=
    toOption_eq_some_iff.1 (by decide +kernel)
  have hwrite : (Sample.disk Sample.paddedRateMenu).write "menu.json"
      (Catalog.text [Sample.cake Sample.paddedRate]) =
        .ok ((Sample.disk Sample.paddedRateMenu).put ["menu.json"]
          (Catalog.text [Sample.cake Sample.paddedRate])) := by
    rw [Disk.write, hplace, ok_bind, if_neg (by decide +kernel)]
    rfl
  rw [hlog, hsnapshot]
  dsimp only [Sample.sale, LoggedDisk.write]
  rw [hwrite]
  exact Disk.read_of_write hwrite

end CommandLine

end PointOfSale

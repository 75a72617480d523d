/-
  PointOfSale/Proofs/CommandLine/Adjust.lean
  ==========================================
  **What the program does to the catalog file when it adjusts stock.**  On a disk that
  keeps a log of all writes, a run either writes nothing or, when it commits, tries one
  write of the catalog: the items that were loaded, each once and in order, and all as
  they were but for the stock that the ledger gave (`run_adjustment`).
-/
import PointOfSale.Proofs.CommandLine.Run
import PointOfSale.Proofs.Ledger.Run
import PointOfSale.Proofs.Order.DryRun
import PointOfSale.Proofs.Snapshot

namespace PointOfSale

/-- The item after an adjustment of the item with an identifier: its amounts are the
    given ones and its version is one higher, if its stock is tracked. -/
def Item.adjusted (id : Uuid) (amounts : AmountTable) (item : Item) : Item :=
  if item.id = id ∧ item.stock.isTracked then
    { item with stock := item.stock.withAmounts amounts, version := item.version + 1 }
  else item

theorem Item.toNat_version_adjusted {item : Item} (amounts : AmountTable)
    (htracked : item.stock.isTracked = true) (hversion : item.version.toNat < 2 ^ 64 - 1) :
    (item.adjusted item.id amounts).version.toNat = item.version.toNat + 1 := by
  rw [adjusted, if_pos ⟨rfl, htracked⟩]
  exact ItemStore.toNat_next_version hversion

/-! ### The store after an adjustment -/

/-- An adjustment that is written changes the one item, and none where stock is not
    tracked. -/
theorem Desk.items_adjusted {desk : Desk} {items : List Item} {id : Uuid} {item : Item}
    {selections : List Selection} {op : Operation} {o : LedgerOutcome}
    (hids : (items.map (·.id)).Nodup) (hitem : (ItemStore.ofList items).get? id = some item)
    (ho : desk.ledger.evaluate item.stock selections op = .ok o) :
    ((desk.adjust id selections op true).written (.ofList items) item o.stock).items =
      items.map (Item.adjusted id o.stock.amounts) := by
  have hstock : item.stock.withAmounts o.stock.amounts = o.stock :=
    Stock.SameRules.withAmounts_amounts (Ledger.sameRules_of_evaluate ho)
  obtain rfl : item.id = id := ItemStore.id_of_get? hitem
  cases htracked : item.stock.isTracked with
  | false =>
    have hsame : ∀ i ∈ items, i.adjusted item.id o.stock.amounts = i := by
      intro i hi
      apply if_neg
      rintro ⟨hiid, hitracked⟩
      rw [ItemStore.eq_of_get?_ofList hids hitem hi hiid, htracked] at hitracked
      cases hitracked
    rw [Call.written_of_untracked _ _ _ htracked, ItemStore.items_ofList hids,
      List.map_congr_left hsame, List.map_id']
  | true =>
    have hwritten : ((desk.adjust item.id selections op true).written (.ofList items) item
        o.stock).items = (ItemStore.ofList items).items.map fun i =>
          if i.id = item.id then { item with stock := o.stock, version := item.version + 1 }
          else i := by
      rw [Call.written, htracked]
      rfl
    rw [hwritten, ItemStore.items_ofList hids]
    apply List.map_congr_left
    intro i hi
    rw [Item.adjusted]
    by_cases hiid : i.id = item.id
    · obtain rfl : i = item := ItemStore.eq_of_get?_ofList hids hitem hi hiid
      rw [if_pos hiid, if_pos ⟨hiid, htracked⟩, hstock]
    · rw [if_neg hiid, if_neg fun h => hiid h.1]

namespace CommandLine

/-! ### Adjustments -/

/-- What a run that adjusts stock is given. -/
structure Adjustment where
  settings : Settings
  catalog : String
  items : List Item
  id : Uuid
  token : String
  selections : List Selection
  commits : Bool

/-- The arguments ask for the adjustment, and the files hold what it is given. -/
structure Adjustment.Found (a : Adjustment) (args : List String) (env : Environment)
    (log : LoggedDisk) : Prop where
  settings : ((Settings.load? (m := StateM LoggedDisk) env).run log).1 = some a.settings
  catalog : ∃ text, log.disk.read a.catalog = .ok text ∧ Catalog.ofText? text = some a.items
  arguments : ∃ named path text,
    arguments? args (env.lookup catalogVariable) =
      some ⟨named, .adjust a.id path a.token a.commits⟩ ∧
    named.or a.settings.catalogPath = some a.catalog ∧ log.disk.read path = .ok text ∧
    (Json.ofString? text).bind (Json.list? Selection.ofJson?) = some a.selections

/-- The end of a run that has tried to save the catalog. -/
def Outcome.ofSave (amounts : Table AmountTable) : Except FileFault Unit → Outcome
  | .ok () => ofAnswer (.ok (Json.ofTable AmountTable.toJson amounts))
  | .error fault => ofAnswer (.error (.catalog (.inaccessible fault)))

theorem Outcome.ofAnswer_saved (amounts : Table AmountTable) (saved : Except FileFault Unit) :
    ofAnswer (saved.mapError (fun fault => .catalog (.inaccessible fault)) |>.map
      fun _ => Json.ofTable AmountTable.toJson amounts) = ofSave amounts saved := by
  cases saved <;> rfl

theorem run_carryOut_adjust {desk : Desk} {catalog path token : String} {items : List Item}
    {id : Uuid} {selections : List Selection} {commits : Bool} {log : LoggedDisk}
    (hread : (readRecord (m := StateM LoggedDisk) (Json.list? Selection.ofJson?) path).run.run log =
      (.ok selections, log)) :
    (carryOut (m := StateM LoggedDisk) desk catalog items
        (.adjust id path token commits)).run.run log =
      match Operation.parse token with
      | .error fault => (.error (.engine fault), log)
      | .ok op =>
        match (desk.adjust id selections op commits).run (.ofList items) with
        | .error fault => (.error (.engine fault), log)
        | .ok (amounts, store) =>
          if commits then
            ((log.write catalog (Catalog.text store.snapshot)).1.mapError
                  (fun fault => .catalog (.inaccessible fault)) |>.map
                fun _ => Json.ofTable AmountTable.toJson amounts,
              (log.write catalog (Catalog.text store.snapshot)).2)
          else (.ok (Json.ofTable AmountTable.toJson amounts), log) := by
  rw [carryOut, run_bind, run_engine]
  cases Operation.parse token with
  | error fault => rfl
  | ok op =>
    dsimp only [Except.mapError]
    rw [run_bind, hread]
    dsimp only
    rw [run_bind, run_engine]
    rcases (desk.adjust id selections op commits).run (.ofList items) with fault | ⟨amounts, store⟩
    · rfl
    · dsimp only [Except.mapError]
      cases commits with
      | false => rfl
      | true =>
        simp only [if_true]
        rw [run_bind, run_adapt, Catalog.run_save, LoggedDisk.run_write]
        cases (log.write catalog (Catalog.text store.snapshot)).1 <;> rfl

/-- Once everything is read, a run is the command carried out. -/
theorem Adjustment.Found.runOn_eq {a : Adjustment} {args : List String} {env : Environment}
    {log : LoggedDisk} (h : a.Found args env log) :
    ∃ path, (readRecord (m := StateM LoggedDisk) (Json.list? Selection.ofJson?) path).run.run log =
        (.ok a.selections, log) ∧
      runOn args env log =
        let ended := (carryOut (m := StateM LoggedDisk) a.settings.desk a.catalog a.items
          (.adjust a.id path a.token a.commits)).run.run log
        (Outcome.ofAnswer ended.1, ended.2) := by
  obtain ⟨named, path, text, harguments, hcatalog, hfile, hselections⟩ := h.arguments
  obtain ⟨items, hitems, hread⟩ := h.catalog
  have hkeeps := Settings.keepsState_load? LoggedDisk.keepsState_read env log
  refine ⟨path, ?_, ?_⟩
  · rw [run_readRecord, hfile]
    dsimp only
    rw [hselections]
  · rw [CommandLine.runOn_eq harguments log, answer, run_lift_bind, hkeeps, h.settings]
    dsimp only
    rw [hcatalog]
    dsimp only
    rw [run_bind, run_adapt, Catalog.run_load, LoggedDisk.run_read, hitems]
    dsimp only
    rw [hread]
    rfl

/-- **An adjustment writes what it adjusted and nothing else.**  If the token names no
    operation, the item is not in the catalog or the ledger fails, the run fails and
    nothing is written.  Otherwise, with a commit, there is one write, of the catalog: it
    has every loaded item once, in the order of the names and then of the identifiers;
    each is as it was loaded, except that the item that was adjusted has, if its stock
    is tracked, the amounts of the ledger and the next version.  Without a commit nothing
    is written, whatever the disk holds. -/
theorem run_adjustment {a : Adjustment} {args : List String} {env : Environment}
    {log : LoggedDisk} (h : a.Found args env log) (hids : (a.items.map (·.id)).Nodup)
    (hversions : ∀ item ∈ a.items, item.version.toNat < 2 ^ 64 - 1) :
    (match Operation.parse a.token with
    | .error fault => runOn args env log = (.failed (.engine fault), log)
    | .ok op =>
      match a.items.find? (·.id = a.id) with
      | none => runOn args env log = (.failed (.engine (.itemNotFound a.id)), log)
      | some item =>
        match a.settings.desk.ledger.evaluate item.stock a.selections op with
        | .error fault => runOn args env log = (.failed (.engine fault), log)
        | .ok o =>
          if a.commits then
            ∃ written : List Item,
              runOn args env log =
                (.ofSave o.amounts (log.write a.catalog (Catalog.text written)).1,
                  (log.write a.catalog (Catalog.text written)).2) ∧
              written.Perm (a.items.map (Item.adjusted a.id o.stock.amounts)) ∧
              written.Pairwise Item.Before ∧
              (item.stock.isTracked = true →
                (item.adjusted a.id o.stock.amounts).version.toNat = item.version.toNat + 1)
          else
            runOn args env log =
              (.ofAnswer (.ok (Json.ofTable AmountTable.toJson o.amounts)), log)) ∧
    (a.commits = false → ∀ other : LoggedDisk, (runOn args env other).2 = other) := by
  constructor
  · obtain ⟨path, hread, hrun⟩ := h.runOn_eq
    rw [hrun, run_carryOut_adjust hread]
    cases Operation.parse a.token with
    | error fault => rfl
    | ok op =>
      have hget : (ItemStore.ofList a.items).get? a.id = a.items.find? (·.id = a.id) := by
        rw [ItemStore.get?, ItemStore.items_ofList hids]
      cases hitem : a.items.find? (·.id = a.id) with
      | none =>
        have hcall := Call.run_of_not_found
          (a.settings.desk.adjust a.id a.selections op a.commits) (hget.trans hitem)
        dsimp only
        rw [hcall]
        rfl
      | some item =>
        have hfound := hget.trans hitem
        dsimp only
        rw [Desk.run_adjust a.selections op a.commits hfound]
        cases ho : a.settings.desk.ledger.evaluate item.stock a.selections op with
        | error fault => rfl
        | ok o =>
          rw [ok_bind]
          cases a.commits with
          | false => rfl
          | true =>
            let store := (a.settings.desk.adjust a.id a.selections op true).written
              (.ofList a.items) item o.stock
            have hitems : store.items = a.items.map (Item.adjusted a.id o.stock.amounts) :=
              Desk.items_adjusted hids hfound ho
            refine ⟨store.snapshot, ?_, ?_, store.pairwise_snapshot, ?_⟩
            · rw [← Outcome.ofAnswer_saved]
              rfl
            · rw [← hitems]
              exact store.snapshot_perm
            · intro htracked
              have hid : item.id = a.id := ItemStore.id_of_get? hfound
              rw [← hid]
              exact Item.toNat_version_adjusted _ htracked
                (hversions item (List.mem_of_find?_eq_some hitem))
  · intro hcommits
    obtain ⟨named, path, text, harguments, -⟩ := h.arguments
    apply writes_nothing
    intro named' id' path' token' hcommand
    rw [harguments, hcommits] at hcommand
    cases hcommand

namespace Sample

def tea : Item where
  id := .ofNat 7
  name := "Tea"
  stock := { isTracked := true, dependsOn := ⟨noDependency, .ofList [(unnamedKey, ⟨"5"⟩)]⟩ }
  version := 3

def bun : Item := { id := .ofNat 1, name := "Bun" }

/-- Two cups of tea are sold. -/
def sale : Adjustment where
  settings := {}
  catalog := "menu.json"
  items := [tea, bun]
  id := .ofNat 7
  token := "decrement"
  selections := [{ itemId := .ofNat 7, quantity := 2 }]
  commits := true

def arguments : List String :=
  ["--catalog", "menu.json", "adjust", "--item", "00000000-0000-0000-0000-000000000007",
    "--selections", "sold.json", "--commit"]

/-- The text of the selections, each as a row of its fields. -/
def soldText : String := "[[null, \"00000000-0000-0000-0000-000000000007\", [], 2]]"

def log : LoggedDisk where
  disk := .ofList [("menu.json", Catalog.text [tea, bun]), ("sold.json", soldText)]

/-- A disk with a catalog and the selections. -/
def disk (menu : String) : Disk := .ofList [("menu.json", menu), ("sold.json", soldText)]

theorem text?_disk (menu : String) (place : List String) : (disk menu).text? place =
    if place = ["sold.json"] then some soldText
    else if place = ["menu.json"] then some menu else none := by
  have hmenu : Path.steps "menu.json" = ["menu.json"] := by decide +kernel
  have hsold : Path.steps "sold.json" = ["sold.json"] := by decide +kernel
  rw [disk, Disk.ofList, List.foldl_cons, List.foldl_cons, List.foldl_nil, Disk.text?_put,
    Disk.text?_put, hmenu, hsold]
  rfl

theorem read_menu (menu : String) : (disk menu).read "menu.json" = .ok menu := by
  apply Disk.read_of_text? (by decide +kernel) (by decide) (by decide) (by decide +kernel)
  · rw [text?_disk, if_neg (by decide), if_neg (by decide)]
  · rw [text?_disk, if_neg (by decide)]
    rfl

theorem read_sold (menu : String) : (disk menu).read "sold.json" = .ok soldText := by
  apply Disk.read_of_text? (by decide +kernel) (by decide) (by decide) (by decide +kernel)
  · rw [text?_disk, if_neg (by decide), if_neg (by decide)]
  · rw [text?_disk]
    rfl

/-- The sale is found with the items of any catalog, where no settings are. -/
theorem found_saleOf {menu : String} {items : List Item} (h : Catalog.ofText? menu = some items)
    (hsettings : ((Settings.load? (m := StateM LoggedDisk) []).run { disk := disk menu }).1 =
      some {}) :
    { sale with items }.Found arguments [] { disk := disk menu } := by
  have harguments : arguments? arguments none =
      some ⟨some "menu.json", .adjust sale.id "sold.json" sale.token sale.commits⟩ := by
    decide +kernel
  have hselections : (Json.ofString? soldText).bind (Json.list? Selection.ofJson?) =
      some sale.selections := by decide +kernel
  constructor
  · exact hsettings
  · exact ⟨menu, read_menu menu, h⟩
  · exact ⟨some "menu.json", "sold.json", soldText, harguments, rfl, read_sold menu, hselections⟩

theorem found_sale : sale.Found arguments [] log := by
  refine found_saleOf ((Catalog.ofText?_text ?_).trans rfl) (by decide +kernel)
  simp only [List.forall_mem_cons]
  exact ⟨nofun, nofun, nofun⟩

end Sample

/-- The stock of tea after the sale. -/
def Sample.left : Stock := Sample.tea.stock.withAmounts (.ofList [(unnamedKey, ⟨"3.0"⟩)])

theorem run_adjustment_sale :
    ∃ written, (runOn Sample.arguments [] Sample.log).2.writes =
        [("menu.json", Catalog.text written)] ∧
      written.Perm [{ Sample.tea with stock := Sample.left, version := 4 }, Sample.bun] := by
  have hrun := (run_adjustment Sample.found_sale (by decide) (by decide)).1
  have hparse : Operation.parse Sample.sale.token = .ok .subtract := rfl
  have hitem : Sample.sale.items.find? (·.id = Sample.sale.id) = some Sample.tea := by decide
  obtain ⟨o, ho, hstock⟩ : ∃ o, Sample.sale.settings.desk.ledger.evaluate Sample.tea.stock
      Sample.sale.selections .subtract = .ok o ∧ o.stock = Sample.left := by
    refine ⟨⟨Sample.left, .ofList [(defaultPreviewKey, Sample.left.amounts)]⟩, ?_, rfl⟩
    exact toOption_eq_some_iff.1 (by decide +kernel)
  rw [hparse] at hrun
  dsimp only at hrun
  rw [hitem] at hrun
  dsimp only at hrun
  rw [ho] at hrun
  obtain ⟨written, hwrites, hperm, -, -⟩ := hrun
  refine ⟨written, ?_, ?_⟩
  · rw [hwrites, LoggedDisk.writes_write]
    rfl
  · have hitems : Sample.sale.items.map (Item.adjusted Sample.sale.id o.stock.amounts) =
        [{ Sample.tea with stock := Sample.left, version := 4 }, Sample.bun] := by
      rw [hstock]
      decide +kernel
    rwa [hitems] at hperm

end CommandLine

end PointOfSale

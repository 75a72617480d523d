/-
  PointOfSale/Proofs/Order/Interleaving.lean
  ==========================================
  **Several callers at one store.**  A call takes its snapshot in one step and
  writes in a later one, and the steps of any number of calls may fall in any
  order.  Whatever the order, the store ends as if only the successful calls had
  been made, one after the other, in the order of their second steps, and each
  would then have had the answer it got.

  The invariant (`Consistent`) is about the snapshots of the calls under way: one
  whose version is still the stored version is the stored record
  (`SnapshotOf.current`), so a write that is let through rests on what is there.
-/
import Mathlib.Data.List.Induction
import Mathlib.Data.List.Infix
import PointOfSale.Proofs.Order.Execution
import PointOfSale.Proofs.Order.Request

namespace PointOfSale

open StoreProgram

/-! ### Steps of callers -/

/-- A step of one of the callers: a new call takes its snapshot, or the call at a
    position among those under way evaluates and writes. -/
inductive CallerStep where
  | load (call : Call Answer)
  | finish (position : Nat)

/-- The store and the calls at it. -/
structure Counter where
  store : ItemStore
  /-- The calls that have their snapshots. -/
  underWay : List (Call Answer × Item) := []
  /-- The calls that have ended, in the order in which they did. -/
  ended : List (Call Answer × Except Fault Answer) := []

namespace Counter

def step (c : Counter) : CallerStep → Counter
  | .load call =>
    match execute (loadItem call.itemId) c.store with
    | (.ok snapshot, store) => { c with store, underWay := c.underWay ++ [(call, snapshot)] }
    | (.error fault, store) => { c with store, ended := c.ended ++ [(call, .error fault)] }
  | .finish position =>
    match c.underWay[position]? with
    | none => c
    | some (call, snapshot) =>
      let r := execute (call.finishing snapshot) c.store
      { store := r.2
        underWay := c.underWay.eraseIdx position
        ended := c.ended ++ [(call, r.1)] }

def run (c : Counter) (steps : List CallerStep) : Counter := steps.foldl step c

def answer? (e : Call Answer × Except Fault Answer) : Option (Call Answer × Answer) :=
  e.2.toOption.map (e.1, ·)

/-- The calls that have succeeded, with their answers, in the order of their second
    steps. -/
def succeeded (c : Counter) : List (Call Answer × Answer) := c.ended.filterMap answer?

end Counter

/-- Calls one after the other without overlap, all of which have to succeed. -/
def runInTurn {α : Type} (store : ItemStore) : List (Call α) → Except Fault (List α × ItemStore)
  | [] => .ok ([], store)
  | call :: calls => do
    let (answer, store) ← call.run store
    let (answers, store) ← runInTurn store calls
    return (answer :: answers, store)

/-- Whether a call is one that writes stock back: an order line that is taken,
    edited or removed, or an adjustment that is to be kept. -/
def Call.IsCommitting (call : Call Answer) : Prop :=
  ∃ (desk : Desk) (r : Request), r.commits = true ∧ call = r.call desk

theorem runInTurn_concat {α : Type} {store middle after : ItemStore} {calls : List (Call α)}
    {answers : List α} {call : Call α} {answer : α}
    (hcalls : runInTurn store calls = .ok (answers, middle))
    (hcall : call.run middle = .ok (answer, after)) :
    runInTurn store (calls ++ [call]) = .ok (answers ++ [answer], after) := by
  induction calls generalizing store answers with
  | nil =>
    cases hcalls
    simp [runInTurn, hcall, pure, Except.pure]
  | cons first calls ih =>
    simp only [runInTurn, bind_eq_ok_iff, pure_eq_ok_iff] at hcalls
    obtain ⟨⟨a, next⟩, hfirst, ⟨as, last⟩, hrest, heq⟩ := hcalls
    cases heq
    simp [runInTurn, hfirst, ih hrest, pure, Except.pure]

/-! ### Snapshots and stored records -/

/-- What a snapshot and the record stored by now have to do with each other. -/
structure SnapshotOf (snapshot item : Item) : Prop where
  version_le : snapshot.version.toNat ≤ item.version.toNat
  current : snapshot.version = item.version → snapshot = item
  isTracked : snapshot.stock.isTracked = item.stock.isTracked
  untracked : item.stock.isTracked = false → snapshot = item

theorem SnapshotOf.refl (item : Item) : SnapshotOf item item :=
  ⟨Nat.le_refl _, fun _ => rfl, rfl, fun _ => rfl⟩

/-- A write of tracked stock leaves every snapshot of the item behind. -/
theorem SnapshotOf.of_write {snapshot item : Item} (h : SnapshotOf snapshot item)
    {stock : Stock} (hrules : item.stock.SameRules stock)
    (htracked : item.stock.isTracked = true) (hversion : item.version.toNat < 2 ^ 64 - 1) :
    SnapshotOf snapshot { item with stock, version := item.version + 1 } where
  version_le := by
    have hle := h.version_le
    rw [ItemStore.toNat_next_version hversion]
    omega
  current heq := by
    have hle := h.version_le
    have hnat : snapshot.version.toNat = (item.version + 1).toNat := congrArg UInt64.toNat heq
    rw [ItemStore.toNat_next_version hversion] at hnat
    omega
  isTracked := by
    rw [h.isTracked]
    exact hrules.isTracked.symm
  untracked hfalse := by
    have htrue : stock.isTracked = true := by rw [hrules.isTracked, htracked]
    exact absurd hfalse (by simp [htrue])

namespace Call.IsCommitting

variable {call : Call Answer}

theorem commits (h : call.IsCommitting) : call.commits = true := by
  obtain ⟨desk, r, hcommits, rfl⟩ := h
  rw [Request.commits_call, hcommits]

theorem sameRules (h : call.IsCommitting) {item : Item} {answer : Answer} {stock : Stock}
    (hevaluate : call.evaluate item = .ok (answer, stock)) : item.stock.SameRules stock := by
  obtain ⟨desk, r, -, rfl⟩ := h
  exact Request.sameRules_of_evaluate hevaluate

/-- The second step does what the whole call would do now, or is refused. -/
theorem finish_eq_run_or_error (h : call.IsCommitting) {store : ItemStore}
    {snapshot item : Item} (hitem : store.get? call.itemId = some item)
    (hid : snapshot.id = call.itemId) (hsnapshot : SnapshotOf snapshot item) :
    call.finish snapshot store = call.run store ∨
      ∃ fault, call.finish snapshot store = .error fault := by
  by_cases heq : snapshot = item
  · left
    subst heq
    have hcurrent : store.get? snapshot.id = some snapshot := by rw [hid, hitem]
    rw [Call.finish_of_current call hcurrent, Call.run_of_get? call hitem]
  · right
    have hversion : item.version ≠ snapshot.version := fun hv => heq (hsnapshot.current hv.symm)
    have htracked : snapshot.stock.isTracked = true := by
      rw [hsnapshot.isTracked]
      cases htrue : item.stock.isTracked with
      | true => rfl
      | false => exact absurd (hsnapshot.untracked htrue) heq
    exact Call.finish_of_stale call (by rw [hid, hitem]) hversion h.commits htracked

end Call.IsCommitting

/-! ### The invariant -/

/-- What holds at the counter after any steps from a store on. -/
structure Consistent (start : ItemStore) (c : Counter) : Prop where
  serial : runInTurn start (c.succeeded.map (·.1)) = .ok (c.succeeded.map (·.2), c.store)
  snapshots : ∀ p ∈ c.underWay, p.1.IsCommitting ∧ p.2.id = p.1.itemId ∧
    ∃ item, c.store.get? p.1.itemId = some item ∧ SnapshotOf p.2 item
  versions : ∀ id item, start.get? id = some item → item.stock.isTracked = true →
    ∃ now, c.store.get? id = some now ∧ now.stock.isTracked = true ∧
      now.version.toNat = item.version.toNat + c.succeeded.countP (·.1.itemId = id)

namespace Consistent

variable {start : ItemStore} {c : Counter}

theorem initial (start : ItemStore) : Consistent start { store := start } where
  serial := rfl
  snapshots := by simp
  versions id item hitem htracked := ⟨item, hitem, htracked, by simp [Counter.succeeded]⟩

theorem of_error (h : Consistent start c) {underWay : List (Call Answer × Item)}
    (hsub : ∀ p ∈ underWay, p ∈ c.underWay) (call : Call Answer) (fault : Fault) :
    Consistent start
      { store := c.store, underWay, ended := c.ended ++ [(call, .error fault)] } := by
  have hsucceeded : (Counter.mk c.store underWay (c.ended ++ [(call, .error fault)])).succeeded =
      c.succeeded := by
    simp [Counter.succeeded, Counter.answer?, Except.toOption]
  constructor
  · rw [hsucceeded]
    exact h.serial
  · exact fun p hp => h.snapshots p (hsub p hp)
  · rw [hsucceeded]
    exact h.versions

theorem of_run (h : Consistent start c) (hversions : c.store.VersionsBelow)
    {underWay : List (Call Answer × Item)} (hsub : ∀ p ∈ underWay, p ∈ c.underWay)
    {call : Call Answer} (hcommitting : call.IsCommitting) {answer : Answer} {after : ItemStore}
    (hrun : call.run c.store = .ok (answer, after)) :
    Consistent start { store := after, underWay, ended := c.ended ++ [(call, .ok answer)] } := by
  have hsucceeded : (Counter.mk after underWay (c.ended ++ [(call, .ok answer)])).succeeded =
      c.succeeded ++ [(call, answer)] := by
    simp [Counter.succeeded, Counter.answer?, Except.toOption]
  obtain ⟨item, stock, hitem, hevaluate, rfl⟩ := Call.run_eq_ok_iff.1 hrun
  have hid := ItemStore.id_of_get? hitem
  have hrules := hcommitting.sameRules hevaluate
  have hbelow := hversions item (ItemStore.mem_of_get? hitem)
  constructor
  · rw [hsucceeded, List.map_append, List.map_append]
    exact runInTurn_concat h.serial hrun
  · intro p hp
    obtain ⟨hp_committing, hp_id, old, hold, hsnapshot⟩ := h.snapshots p (hsub p hp)
    refine ⟨hp_committing, hp_id, ?_⟩
    simp only [Call.written, hcommitting.commits, Bool.true_and]
    split
    · rename_i htracked
      by_cases hsame : p.1.itemId = call.itemId
      · have heq : old = item := by
          rw [hsame, hitem] at hold
          exact (Option.some.inj hold).symm
        subst heq
        refine ⟨_, ?_, hsnapshot.of_write hrules htracked hbelow⟩
        rw [hsame, ← hid]
        exact ItemStore.get?_replace_self (by rw [hid, hitem])
      · exact ⟨old, by rwa [ItemStore.get?_replace_of_ne _ (by rwa [hid])], hsnapshot⟩
    · exact ⟨old, hold, hsnapshot⟩
  · intro id first hfirst hfirst_tracked
    obtain ⟨now, hnow, hnow_tracked, hcount⟩ := h.versions id first hfirst hfirst_tracked
    rw [hsucceeded, List.countP_append]
    by_cases hsame : call.itemId = id
    · -- the call is one on this item: its write is the one that is counted more
      subst hsame
      have heq : now = item := by
        rw [hitem] at hnow
        exact (Option.some.inj hnow).symm
      subst heq
      refine ⟨{ now with stock, version := now.version + 1 }, ?_, ?_, ?_⟩
      · simp only [Call.written, hcommitting.commits, hnow_tracked, Bool.and_self, if_true]
        rw [← hid]
        exact ItemStore.get?_replace_self (by rw [hid, hitem])
      · rw [hrules.isTracked, hnow_tracked]
      · simp [ItemStore.toNat_next_version hbelow, hcount]
        omega
    · refine ⟨now, ?_, hnow_tracked, by simp [hcount, hsame]⟩
      simp only [Call.written]
      split
      · rwa [ItemStore.get?_replace_of_ne _ (by rw [hid]; exact Ne.symm hsame)]
      · exact hnow

/-- A step that starts no call but a committing one keeps the counter consistent. -/
theorem step (h : Consistent start c) (hversions : c.store.VersionsBelow) (s : CallerStep)
    (hcommitting : ∀ call, s = .load call → call.IsCommitting) :
    Consistent start (c.step s) := by
  cases s with
  | load call =>
    simp only [Counter.step, execute_loadItem]
    cases hload : c.store.load call.itemId with
    | error fault => exact h.of_error (fun p hp => hp) call fault
    | ok snapshot =>
      have hitem := ItemStore.load_eq_ok_iff.1 hload
      refine ⟨h.serial, ?_, h.versions⟩
      intro p hp
      rcases List.mem_append.1 hp with hp | hp
      · exact h.snapshots p hp
      · have heq : p = (call, snapshot) := by simpa using hp
        subst heq
        exact ⟨hcommitting call rfl, ItemStore.id_of_get? hitem, snapshot, hitem, .refl _⟩
  | finish position =>
    simp only [Counter.step]
    cases hp : c.underWay[position]? with
    | none => exact h
    | some p =>
      obtain ⟨call, snapshot⟩ := p
      obtain ⟨hcall, hid, item, hitem, hsnapshot⟩ :=
        h.snapshots (call, snapshot) (List.mem_of_getElem? hp)
      have hsub : ∀ p ∈ c.underWay.eraseIdx position, p ∈ c.underWay :=
        fun p => List.mem_of_mem_eraseIdx
      simp only [Call.execute_finishing]
      rcases hcall.finish_eq_run_or_error hitem hid hsnapshot with hrun | ⟨fault, hfault⟩
      · rw [hrun]
        cases hresult : call.run c.store with
        | error fault => exact h.of_error hsub call fault
        | ok r => exact h.of_run hversions hsub hcall hresult
      · rw [hfault]
        exact h.of_error hsub call fault

theorem run (start : ItemStore) (steps : List CallerStep)
    (hcommitting : ∀ call, .load call ∈ steps → call.IsCommitting)
    (hversions : ∀ before, before <+: steps →
      (Counter.run { store := start } before).store.VersionsBelow) :
    Consistent start (Counter.run { store := start } steps) := by
  induction steps using List.reverseRecOn with
  | nil => exact initial start
  | append_singleton before s ih =>
    have hprefix : before <+: before ++ [s] := List.prefix_append _ _
    have hbefore := ih (fun call hmem => hcommitting call (by simp [hmem]))
      (fun first hfirst => hversions first (hfirst.trans hprefix))
    simp only [Counter.run, List.foldl_append, List.foldl_cons, List.foldl_nil]
    exact hbefore.step (hversions before hprefix) s
      (fun call heq => hcommitting call (by simp [heq]))

end Consistent

/-- A step in which a call fails leaves the store as it was. -/
theorem Counter.store_step_of_error {c : Counter} {s : CallerStep} {call : Call Answer}
    {fault : Fault} (h : (c.step s).ended = c.ended ++ [(call, .error fault)]) :
    (c.step s).store = c.store := by
  cases s with
  | load other =>
    simp only [step, execute_loadItem]
    cases c.store.load other.itemId <;> rfl
  | finish position =>
    simp only [step] at h ⊢
    cases hp : c.underWay[position]? with
    | none => rfl
    | some p =>
      obtain ⟨other, snapshot⟩ := p
      simp only [hp, List.append_cancel_left_eq, List.cons.injEq, Prod.mk.injEq, and_true] at h
      simp only [Call.execute_finishing] at h ⊢
      exact eq_of_settled_error (Prod.ext h.2 rfl)

/-- **No update is lost.**  Calls that write, with their steps in any order, leave the
    store that the successful ones leave when they are made one after the other in
    the order of their second steps, and they have the same answers there.  A call
    that fails leaves the store as it is, and the version of a tracked item has grown
    by the number of successful calls on it, each of which wrote once. -/
theorem interleaving_eq_in_turn (start : ItemStore) (steps : List CallerStep)
    (hcommitting : ∀ call, .load call ∈ steps → call.IsCommitting)
    (hversions : ∀ before, before <+: steps →
      (Counter.run { store := start } before).store.VersionsBelow) :
    let last := Counter.run { store := start } steps
    runInTurn start (last.succeeded.map (·.1)) = .ok (last.succeeded.map (·.2), last.store) ∧
    (∀ before s, before ++ [s] <+: steps → ∀ call fault,
      (Counter.run { store := start } (before ++ [s])).ended =
        (Counter.run { store := start } before).ended ++ [(call, .error fault)] →
      (Counter.run { store := start } (before ++ [s])).store =
        (Counter.run { store := start } before).store) ∧
    (∀ id item, start.get? id = some item → item.stock.isTracked = true →
      ∃ now, last.store.get? id = some now ∧
        now.version.toNat = item.version.toNat + last.succeeded.countP (·.1.itemId = id)) := by
  have h := Consistent.run start steps hcommitting hversions
  refine ⟨h.serial, ?_, ?_⟩
  · intro before s _ call fault hended
    simp only [Counter.run, List.foldl_append, List.foldl_cons, List.foldl_nil] at hended ⊢
    exact Counter.store_step_of_error hended
  · intro id item hitem htracked
    obtain ⟨now, hnow, -, hcount⟩ := h.versions id item hitem htracked
    exact ⟨now, hnow, hcount⟩

namespace Sample

def take (flavor amount : String) : Call Answer :=
  (Request.create (portion flavor amount) .nil .epoch).call {}

/-- Two portions are asked for at once, and the later caller writes first. -/
def rush : List CallerStep :=
  [.load (take "Mocha" "1"), .load (take "Mocha" "2.5"), .finish 1, .finish 0,
    .load (take "Vanilla" "1"), .finish 0]

end Sample

/-- In the rush two calls succeed, as if made in turn, and one is refused. -/
theorem rush_eq_in_turn :
    let last := Counter.run { store := Sample.shop } Sample.rush
    runInTurn Sample.shop (last.succeeded.map (·.1)) =
        .ok (last.succeeded.map (·.2), last.store) ∧
      last.ended.length = 3 ∧ last.succeeded.length = 2 := by
  refine ⟨(interleaving_eq_in_turn Sample.shop Sample.rush ?_ ?_).1, by decide, by decide⟩
  · intro call hcall
    simp only [Sample.rush, List.mem_cons, CallerStep.load.injEq, reduceCtorEq, List.not_mem_nil,
      or_false, false_or] at hcall
    rcases hcall with rfl | rfl | rfl <;> exact ⟨_, _, rfl, rfl⟩
  · intro before hbefore
    rw [← List.mem_inits] at hbefore
    revert before
    decide

end PointOfSale

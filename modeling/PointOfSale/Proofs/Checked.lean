/-
  PointOfSale/Proofs/Checked.lean
  ===============================
  **Evaluations that may fail**, taken apart step by step: a sequence succeeds
  exactly when its first step does and the rest succeeds on what that gave, and it
  fails where one of its steps fails.
-/
import Mathlib.Data.List.Forall2
import Mathlib.Data.List.Induction
import PointOfSale.Operation

namespace PointOfSale

variable {ε α β : Type}

@[simp] theorem ok_bind (a : α) (f : α → Except ε β) : (Except.ok a >>= f) = f a := rfl

@[simp] theorem error_bind (e : ε) (f : α → Except ε β) :
    ((Except.error e : Except ε α) >>= f) = .error e := rfl

@[simp] theorem ok_map (f : α → β) (a : α) : (f <$> (Except.ok a : Except ε α)) = .ok (f a) := rfl

@[simp] theorem error_map (f : α → β) (e : ε) :
    (f <$> (Except.error e : Except ε α)) = .error e := rfl

theorem bind_eq_ok_iff {x : Except ε α} {f : α → Except ε β} {b : β} :
    (x >>= f) = .ok b ↔ ∃ a, x = .ok a ∧ f a = .ok b := by
  cases x <;> simp

theorem bind_eq_error_iff {x : Except ε α} {f : α → Except ε β} {e : ε} :
    (x >>= f) = .error e ↔ x = .error e ∨ ∃ a, x = .ok a ∧ f a = .error e := by
  cases x <;> simp

theorem map_eq_ok_iff {x : Except ε α} {f : α → β} {b : β} :
    (f <$> x) = .ok b ↔ ∃ a, x = .ok a ∧ f a = b := by
  cases x <;> simp

theorem map_eq_error_iff {x : Except ε α} {f : α → β} {e : ε} :
    (f <$> x) = .error e ↔ x = .error e := by
  cases x <;> simp

@[simp] theorem pure_eq_ok_iff {a b : α} : (pure a : Except ε α) = .ok b ↔ a = b := by
  simp [pure, Except.pure]

theorem toOption_eq_some_iff {x : Except ε α} {a : α} : x.toOption = some a ↔ x = .ok a := by
  cases x <;> simp [Except.toOption]

/-- Steps that agree on the elements of a row make the same run. -/
theorem foldlM_congr {f g : β → α → Except ε β} {as : List α}
    (h : ∀ a ∈ as, ∀ b, f b a = g b a) {start : β} : as.foldlM f start = as.foldlM g start := by
  induction as generalizing start with
  | nil => rfl
  | cons a rest ih =>
    rw [List.foldlM_cons, List.foldlM_cons, h a List.mem_cons_self]
    exact bind_congr fun next => ih fun c hc => h c (List.mem_cons_of_mem a hc)

/-- Steps that agree on the elements of two rows, pair by pair, make the same run. -/
theorem foldlM_forall₂ {γ : Type} {R : α → γ → Prop} {f : β → α → Except ε β}
    {g : β → γ → Except ε β} {as : List α} {cs : List γ} (h : List.Forall₂ R as cs)
    (hstep : ∀ a c, R a c → ∀ b, f b a = g b c) {start : β} :
    as.foldlM f start = cs.foldlM g start := by
  induction h generalizing start with
  | nil => rfl
  | cons hac _ ih =>
    rw [List.foldlM_cons, List.foldlM_cons, hstep _ _ hac]
    exact bind_congr fun next => ih

/-- What every successful step keeps, a successful run of steps keeps. -/
theorem foldlM_induction {f : β → α → Except ε β} (keeps : β → Prop)
    (hstep : ∀ b a next, keeps b → f b a = .ok next → keeps next) {as : List α} {start last : β}
    (hstart : keeps start) (h : as.foldlM f start = .ok last) : keeps last := by
  induction as generalizing start with
  | nil =>
    have heq : start = last := by simpa using h
    exact heq ▸ hstart
  | cons a rest ih =>
    rw [List.foldlM_cons, bind_eq_ok_iff] at h
    obtain ⟨next, hnext, hrest⟩ := h
    exact ih (hstep start a next hstart hnext) hrest

/-- A run that fails does so at one of its steps. -/
theorem exists_error_of_foldlM {f : β → α → Except ε β} {as : List α} {start : β} {e : ε}
    (h : as.foldlM f start = .error e) : ∃ b, ∃ a ∈ as, f b a = .error e := by
  induction as generalizing start with
  | nil => cases h
  | cons a rest ih =>
    rw [List.foldlM_cons, bind_eq_error_iff] at h
    rcases h with h | ⟨next, -, h⟩
    · exact ⟨start, a, List.mem_cons_self, h⟩
    · obtain ⟨b, c, hc, hb⟩ := ih h
      exact ⟨b, c, List.mem_cons_of_mem a hc, hb⟩

section Prefixes

variable {f : β → α → Except ε β} {as : List α} {start last : β}

/-- A run keeps what its steps keep, where that speaks of the part of the row that was
    taken as well. -/
theorem foldlM_prefix_induction (keeps : List α → β → Prop) (hstart : keeps [] start)
    (hstep : ∀ part a b next, part ++ [a] <+: as → keeps part b → f b a = .ok next →
      keeps (part ++ [a]) next)
    (h : as.foldlM f start = .ok last) : keeps as last := by
  induction as using List.reverseRecOn generalizing last with
  | nil =>
    cases h
    exact hstart
  | append_singleton as a ih =>
    simp only [List.foldlM_append, List.foldlM_cons, List.foldlM_nil, bind_pure,
      bind_eq_ok_iff] at h
    obtain ⟨b, hb, hlast⟩ := h
    have hkeeps : keeps as b := by
      apply ih _ hb
      intro part c d next hpart
      exact hstep part c d next (hpart.trans (List.prefix_append as [a]))
    exact hstep as a b last (List.prefix_refl _) hkeeps hlast

/-- A run succeeds if each step does on what was kept so far. -/
theorem exists_foldlM (keeps : List α → β → Prop) (hstart : keeps [] start)
    (hstep : ∀ part a b, part ++ [a] <+: as → keeps part b →
      ∃ next, f b a = .ok next ∧ keeps (part ++ [a]) next) :
    ∃ last, as.foldlM f start = .ok last ∧ keeps as last := by
  induction as using List.reverseRecOn with
  | nil => exact ⟨start, rfl, hstart⟩
  | append_singleton as a ih =>
    obtain ⟨b, hb, hkeeps⟩ := ih fun part c d hpart =>
      hstep part c d (hpart.trans (List.prefix_append as [a]))
    obtain ⟨last, hlast, hall⟩ := hstep as a b (List.prefix_refl _) hkeeps
    refine ⟨last, ?_, hall⟩
    rw [List.foldlM_append, hb, ok_bind, List.foldlM_cons, hlast]
    rfl

end Prefixes

/-! ### Operations -/

namespace Operation

theorem apply_eq_ok_iff {op : Operation} {value accumulator d : Decimal} :
    op.apply value accumulator = .ok d ↔ op.result? value accumulator = some d := by
  unfold apply
  cases op.result? value accumulator <;> simp

theorem apply_eq_error_iff {op : Operation} {value accumulator : Decimal} {fault : Fault} :
    op.apply value accumulator = .error fault ↔
      op.result? value accumulator = none ∧ .numericOverflow accumulator op value = fault := by
  unfold apply
  cases op.result? value accumulator <;> simp

theorem parse_eq_error_iff {token : String} {fault : Fault} :
    parse token = .error fault ↔ ofToken? token = none ∧ .unsupportedOperator token = fault := by
  unfold parse
  cases ofToken? token <;> simp

theorem parse_eq_ok_iff {token : String} {op : Operation} :
    parse token = .ok op ↔ ofToken? token = some op := by
  unfold parse
  cases ofToken? token <;> simp

end Operation

end PointOfSale

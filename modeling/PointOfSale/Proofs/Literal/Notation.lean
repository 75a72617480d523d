/-
  PointOfSale/Proofs/Literal/Notation.lean
  ========================================
  **What is read as a figure.**  A figure is a plain number, or the ratio of two in
  parentheses with white space around each.  Nothing else is read (`parse_form`), except
  that a plus sign is passed over in two places where a sign follows or precedes it:
  in front of a signed number, and behind the minus sign of a power of ten.

  Both leave two signs side by side, and no figure of the stricter notation does
  (`signsApart_chars_iff`).

  This goes for numbers of any length.  Of the places that no longer fit only the first
  has a say in the number, but the text is read to its end: a character behind them that
  no figure has makes it no figure (`parse_eq_error_of_mem`), and a power of ten counts.
-/
import Mathlib.Data.List.Chain
import PointOfSale.Literal
import PointOfSale.Proofs.Decimal.Notation

namespace PointOfSale

open Text (isBlank trim)

/-! ### White space -/

namespace Text

theorem exists_blanks_trim (cs : List Char) :
    ∃ before after, (∀ c ∈ before ++ after, isBlank c = true) ∧
      cs = before ++ trim cs ++ after := by
  have hblank : ∀ ds : List Char, ∀ c ∈ ds.takeWhile isBlank, isBlank c = true :=
    fun _ _ => List.mem_takeWhile_imp
  have hstart : cs = cs.takeWhile isBlank ++ trimStart cs :=
    (List.takeWhile_append_dropWhile ..).symm
  have hend : trimStart cs = trim cs ++ ((trimStart cs).reverse.takeWhile isBlank).reverse := by
    rw [trim, trimEnd, ← List.reverse_append, List.takeWhile_append_dropWhile,
      List.reverse_reverse]
  refine ⟨cs.takeWhile isBlank, ((trimStart cs).reverse.takeWhile isBlank).reverse, ?_, ?_⟩
  · intro c hc
    rcases List.mem_append.1 hc with hc | hc
    · exact hblank _ c hc
    · exact hblank _ c (List.mem_reverse.1 hc)
  · rw [List.append_assoc, ← hend]
    exact hstart

theorem mem_trim {cs : List Char} {c : Char} (hc : c ∈ cs) (hblank : isBlank c = false) :
    c ∈ trim cs := by
  obtain ⟨before, after, hblanks, hcs⟩ := exists_blanks_trim cs
  rw [hcs, List.mem_append, List.mem_append] at hc
  rcases hc with (hc | hc) | hc
  · exact absurd (hblanks c (List.mem_append_left _ hc)) (by simp [hblank])
  · exact hc
  · exact absurd (hblanks c (List.mem_append_right _ hc)) (by simp [hblank])

theorem trim_append {before after cs : List Char}
    (hblank : ∀ c ∈ before ++ after, isBlank c = true) (hne : cs ≠ [])
    (hcs : ∀ c ∈ cs, isBlank c = false) : trim (before ++ cs ++ after) = cs := by
  have hbefore : ∀ c ∈ before, isBlank c = true := fun c hc => hblank c (List.mem_append_left _ hc)
  have hafter : ∀ c ∈ after.reverse, isBlank c = true := fun c hc =>
    hblank c (List.mem_append_right _ (List.mem_reverse.1 hc))
  have hdrop : ∀ ds es : List Char, ds ≠ [] → (∀ c ∈ ds, isBlank c = false) →
      (ds ++ es).dropWhile isBlank = ds ++ es := by
    intro ds es hds hbare
    obtain ⟨d, rest, rfl⟩ := List.exists_cons_of_ne_nil hds
    rw [List.cons_append, List.dropWhile_cons_of_neg]
    simp [hbare d List.mem_cons_self]
  have hreverse : ∀ c ∈ cs.reverse, isBlank c = false := fun c hc => hcs c (List.mem_reverse.1 hc)
  have hrest := hdrop cs.reverse [] (by simpa using hne) hreverse
  rw [List.append_nil] at hrest
  rw [trim, trimStart, List.append_assoc, List.dropWhile_append_of_pos hbefore,
    hdrop cs after hne hcs, trimEnd, List.reverse_append, List.dropWhile_append_of_pos hafter,
    hrest, List.reverse_reverse]

/-! ### Signs side by side -/

def isSign (c : Char) : Bool := c = '+' || c = '-'

/-- No two signs stand side by side. -/
def SignsApart (cs : List Char) : Prop := cs.IsChain fun a b => ¬(isSign a = true ∧ isSign b = true)

instance (cs : List Char) : Decidable (SignsApart cs) :=
  inferInstanceAs (Decidable (List.IsChain _ cs))

variable {cs rest : List Char} {c : Char}

theorem signsApart_append_iff (hcs : ∀ c ∈ cs, isSign c = false) :
    SignsApart (cs ++ rest) ↔ SignsApart rest := by
  induction cs with
  | nil => rfl
  | cons c cs ih =>
    have hc := hcs c List.mem_cons_self
    have htail := ih fun d hd => hcs d (List.mem_cons_of_mem c hd)
    unfold SignsApart at htail ⊢
    rw [List.cons_append, List.isChain_cons, htail]
    simp [hc]

theorem signsApart_signs_iff {signs : List Char} (hsigns : ∀ c ∈ signs, isSign c = true)
    (hne : cs ≠ []) (hcs : ∀ c ∈ cs, isSign c = false) :
    SignsApart (signs ++ (cs ++ rest)) ↔ signs.length ≤ 1 ∧ SignsApart rest := by
  have hrest : SignsApart (cs ++ rest) ↔ SignsApart rest := signsApart_append_iff hcs
  rw [← hrest]
  obtain ⟨c, more, rfl⟩ := List.exists_cons_of_ne_nil hne
  have hc := hcs c List.mem_cons_self
  unfold SignsApart
  rcases signs with _ | ⟨a, _ | ⟨b, signs⟩⟩
  · simp
  · simp [hc]
  · have ha := hsigns a (by simp)
    have hb := hsigns b (by simp)
    simp [ha, hb]

end Text

/-! ### Plain numbers -/

namespace PlainForm

/-- The signs that are passed over in front of a number. -/
def leadingSigns : List (List Char) := ['+', '+'] :: ['+', '-'] :: singleSigns

structure IsReadable (n : PlainForm) : Prop where
  signs : n.signs ∈ leadingSigns
  power : ∀ p ∈ n.power?, p.signs ∈ Decimal.exponentSigns

/-- A number with at most one sign in front of it, and at most one in its power of ten. -/
structure IsSingleSigned (n : PlainForm) : Prop where
  signs : n.signs ∈ singleSigns
  power : ∀ p ∈ n.power?, p.signs ∈ singleSigns

variable {n : PlainForm}

theorem IsSingleSigned.isReadable (h : n.IsSingleSigned) : n.IsReadable := by
  refine ⟨?_, ?_⟩
  · exact List.mem_cons_of_mem _ (List.mem_cons_of_mem _ h.signs)
  · intro p hp
    exact List.mem_cons_of_mem _ (h.power p hp)

def alphabet : List Char := "0123456789_.+-eE".toList

theorem IsReadable.mem_alphabet (h : n.IsReadable) {c : Char} (hc : c ∈ n.chars) :
    c ∈ alphabet := by
  have hdigits : ∀ d < 10, Nat.digitChar d ∈ alphabet := by decide
  rw [chars, List.mem_append, List.mem_append] at hc
  rcases hc with (hc | hc) | hc
  · have hall : ∀ signs ∈ leadingSigns, signs.all (fun c => decide (c ∈ alphabet)) = true := by
      decide
    exact Text.forall_mem_of_all (hall n.signs h.signs) c hc
  · have hall : ∀ c ∈ PositionalForm.alphabet, c ∈ alphabet :=
      Text.forall_mem_of_all (by decide)
    exact hall c (PositionalForm.mem_alphabet hc)
  · cases hpower : n.power? with
    | none => simp [hpower] at hc
    | some p =>
      rw [hpower, Option.elim, PowerForm.chars, PowerForm.exponentChars, List.mem_cons,
        List.mem_append] at hc
      rcases hc with rfl | hc | hc
      · rcases p.isMark with hmark | hmark <;> rw [hmark] <;> decide
      · have hall : ∀ signs ∈ Decimal.exponentSigns,
            signs.all (fun c => decide (c ∈ alphabet)) = true := by decide
        exact Text.forall_mem_of_all (hall p.signs (h.power p hpower)) c hc
      · obtain ⟨d, hd, rfl⟩ := List.mem_map.1 hc
        exact hdigits d (p.lt_ten d hd)

theorem IsReadable.isBlank_eq_false (h : n.IsReadable) {c : Char} (hc : c ∈ n.chars) :
    isBlank c = false := by
  have hall : ∀ c ∈ alphabet, isBlank c = false := Text.forall_mem_of_all (by decide)
  exact hall c (h.mem_alphabet hc)

theorem chars_ne_nil (n : PlainForm) : n.chars ≠ [] := by
  intro hnil
  rw [chars, List.append_eq_nil_iff, List.append_eq_nil_iff] at hnil
  exact n.body.chars_ne_nil hnil.1.2

theorem signsApart_power_iff {p : PowerForm} (h : p.signs ∈ Decimal.exponentSigns)
    {rest : List Char} :
    Text.SignsApart (p.chars ++ rest) ↔ p.signs ∈ singleSigns ∧ Text.SignsApart rest := by
  have hexponent : ∀ signs ∈ Decimal.exponentSigns, signs.all Text.isSign = true ∧
      (signs ∈ singleSigns ↔ signs.length ≤ 1) := by decide
  have hmark : ∀ c ∈ [p.mark], Text.isSign c = false := by
    intro c hc
    rw [List.mem_singleton.1 hc]
    rcases p.isMark with hmark | hmark <;> rw [hmark] <;> decide
  have hdigits : ∀ c ∈ p.digits.map Nat.digitChar, Text.isSign c = false := by
    have hall : ∀ d < 10, Text.isSign (Nat.digitChar d) = false := by decide
    intro c hc
    obtain ⟨d, hd, rfl⟩ := List.mem_map.1 hc
    exact hall d (p.lt_ten d hd)
  obtain ⟨hsigns, hsingle⟩ := hexponent p.signs h
  have htext : p.chars ++ rest = [p.mark] ++ (p.signs ++ (p.digits.map Nat.digitChar ++ rest)) := by
    simp [PowerForm.chars, PowerForm.exponentChars]
  rw [htext, Text.signsApart_append_iff hmark,
    Text.signsApart_signs_iff (List.all_eq_true.1 hsigns) (by simpa using p.digits_ne_nil) hdigits,
    ← hsingle]

/-- Two signs side by side stand where a plus sign is passed over, and nowhere else. -/
theorem IsReadable.signsApart_append_iff (h : n.IsReadable) {rest : List Char} :
    Text.SignsApart (n.chars ++ rest) ↔ n.IsSingleSigned ∧ Text.SignsApart rest := by
  have hleading : ∀ signs ∈ leadingSigns, signs.all Text.isSign = true ∧
      (signs ∈ singleSigns ↔ signs.length ≤ 1) := by decide
  have hbody : ∀ c ∈ n.body.chars, Text.isSign c = false := by
    have hall : ∀ c ∈ PositionalForm.alphabet, Text.isSign c = false :=
      Text.forall_mem_of_all (by decide)
    intro c hc
    exact hall c (PositionalForm.mem_alphabet hc)
  have hpower : Text.SignsApart (n.power?.elim [] PowerForm.chars ++ rest) ↔
      (∀ p ∈ n.power?, p.signs ∈ singleSigns) ∧ Text.SignsApart rest := by
    cases hcase : n.power? with
    | none => simp
    | some p =>
      rw [Option.elim, signsApart_power_iff (h.power p hcase)]
      simp
  obtain ⟨hsigns, hsingle⟩ := hleading n.signs h.signs
  have htext : n.chars ++ rest =
      n.signs ++ (n.body.chars ++ (n.power?.elim [] PowerForm.chars ++ rest)) := by
    simp [chars]
  rw [htext, Text.signsApart_signs_iff (List.all_eq_true.1 hsigns) n.body.chars_ne_nil hbody,
    hpower, ← hsingle, ← and_assoc]
  exact and_congr_left' ⟨fun h => ⟨h.1, h.2⟩, fun h => ⟨h.signs, h.power⟩⟩

end PlainForm

namespace Literal

/-- **Plain numbers are read from their forms**, a surplus plus sign included. -/
theorem plain?_eq_some_iff {cs : List Char} {d : Decimal} :
    plain? cs = some d ↔ ∃ n : PlainForm, n.IsReadable ∧ cs = n.chars ∧ n.number? = some d := by
  constructor
  · intro h
    unfold plain? at h
    split at h
    · rename_i rest
      obtain ⟨⟨signs, body, power?⟩, ⟨hsigns, hpower⟩, rfl, hd⟩ := Decimal.ofChars?_eq_some_iff.1 h
      have hall : ∀ signs ∈ singleSigns, '+' :: signs ∈ PlainForm.leadingSigns ∧
          decide ('-' ∈ '+' :: signs) = decide ('-' ∈ signs) := by decide
      obtain ⟨hleading, hnegative⟩ := hall signs hsigns
      refine ⟨⟨'+' :: signs, body, power?⟩, ⟨hleading, hpower⟩, rfl, ?_⟩
      rw [← hd, PlainForm.number?, PlainForm.number?, hnegative]
    · obtain ⟨n, hn, htext, hd⟩ := Decimal.ofChars?_eq_some_iff.1 h
      exact ⟨n, ⟨List.mem_cons_of_mem _ (List.mem_cons_of_mem _ hn.signs), hn.power⟩, htext, hd⟩
  · rintro ⟨⟨signs, body, power?⟩, ⟨hsigns, hpower⟩, rfl, hd⟩
    have hall : ∀ signs ∈ PlainForm.leadingSigns, signs = [] ∨ signs = ['-'] ∨
        ∃ rest ∈ singleSigns, signs = '+' :: rest ∧
          decide ('-' ∈ '+' :: rest) = decide ('-' ∈ rest) := by decide
    have hread : ∀ signs ∈ singleSigns, ∀ d, (PlainForm.mk signs body power?).number? = some d →
        Decimal.ofChars? (PlainForm.mk signs body power?).chars = some d := by
      intro signs hsigns d hd
      exact Decimal.ofChars?_eq_some_iff.2 ⟨⟨signs, body, power?⟩, ⟨hsigns, hpower⟩, rfl, hd⟩
    rcases hall signs hsigns with rfl | rfl | ⟨rest, hrest, rfl, hnegative⟩
    · obtain ⟨c, more, htext, hc⟩ := body.exists_chars_eq_cons
      have hplus : c ≠ '+' := by
        rintro rfl
        exact absurd hc (by decide)
      have hopen : plain? (PlainForm.mk [] body power?).chars =
          Decimal.ofChars? (PlainForm.mk [] body power?).chars := by
        simp only [PlainForm.chars, htext, List.nil_append, List.cons_append]
        rw [plain?]
        rintro cs hcs
        exact hplus (List.cons.inj hcs).1
      rw [hopen]
      exact hread [] (by decide) d hd
    · exact hread ['-'] (by decide) d hd
    · refine hread rest hrest d ?_
      rw [← hd, PlainForm.number?, PlainForm.number?, hnegative]

end Literal

/-! ### Figures -/

structure PaddedForm where
  before : List Char
  number : PlainForm
  after : List Char
  blank : ∀ c ∈ before ++ after, isBlank c = true

def PaddedForm.chars (p : PaddedForm) : List Char := p.before ++ p.number.chars ++ p.after

theorem PaddedForm.mem_alphabet {p : PaddedForm} (h : p.number.IsReadable) {c : Char}
    (hc : c ∈ p.chars) (hblank : isBlank c = false) : c ∈ PlainForm.alphabet := by
  rw [chars, List.mem_append, List.mem_append] at hc
  rcases hc with (hc | hc) | hc
  · exact absurd (p.blank c (List.mem_append_left _ hc)) (by simp [hblank])
  · exact h.mem_alphabet hc
  · exact absurd (p.blank c (List.mem_append_right _ hc)) (by simp [hblank])

inductive FigureForm where
  | plain (n : PlainForm)
  | ratio (a b : PaddedForm)

namespace FigureForm

def chars : FigureForm → List Char
  | plain n => n.chars
  | ratio a b => '(' :: (a.chars ++ '/' :: b.chars) ++ [')']

def number? : FigureForm → Option Decimal
  | plain n => n.number?
  | ratio a b => do (← a.number.number?).div? (← b.number.number?)

def IsReadable : FigureForm → Prop
  | plain n => n.IsReadable
  | ratio a b => a.number.IsReadable ∧ b.number.IsReadable

def IsSingleSigned : FigureForm → Prop
  | plain n => n.IsSingleSigned
  | ratio a b => a.number.IsSingleSigned ∧ b.number.IsSingleSigned

theorem IsSingleSigned.isReadable {t : FigureForm} (h : t.IsSingleSigned) : t.IsReadable := by
  cases t with
  | plain n => exact PlainForm.IsSingleSigned.isReadable h
  | ratio a b => exact ⟨h.1.isReadable, h.2.isReadable⟩

def alphabet : List Char := "(/)".toList ++ PlainForm.alphabet

theorem IsReadable.mem_alphabet {t : FigureForm} (h : t.IsReadable) {c : Char} (hc : c ∈ t.chars)
    (hblank : isBlank c = false) : c ∈ alphabet := by
  cases t with
  | plain n => exact List.mem_append_right _ (PlainForm.IsReadable.mem_alphabet h hc)
  | ratio a b =>
    simp only [chars, List.mem_append, List.mem_cons, List.not_mem_nil, or_false] at hc
    rcases hc with (rfl | hc | rfl | hc) | rfl
    · decide
    · exact List.mem_append_right _ (PaddedForm.mem_alphabet h.1 hc hblank)
    · decide
    · exact List.mem_append_right _ (PaddedForm.mem_alphabet h.2 hc hblank)
    · decide

end FigureForm

theorem PaddedForm.signsApart_append_iff {p : PaddedForm} (h : p.number.IsReadable)
    {rest : List Char} :
    Text.SignsApart (p.chars ++ rest) ↔ p.number.IsSingleSigned ∧ Text.SignsApart rest := by
  have hblank : ∀ c, isBlank c = true → Text.isSign c = false := by
    intro c hc
    cases hsign : Text.isSign c with
    | false => rfl
    | true =>
      have hcase : c = '+' ∨ c = '-' := by simpa [Text.isSign] using hsign
      rcases hcase with rfl | rfl <;> exact absurd hc (by decide)
  have hbefore : ∀ c ∈ p.before, Text.isSign c = false := fun c hc =>
    hblank c (p.blank c (List.mem_append_left _ hc))
  have hafter : ∀ c ∈ p.after, Text.isSign c = false := fun c hc =>
    hblank c (p.blank c (List.mem_append_right _ hc))
  rw [chars, List.append_assoc, List.append_assoc, Text.signsApart_append_iff hbefore,
    h.signsApart_append_iff, Text.signsApart_append_iff hafter]

/-- Signs stand side by side in a figure that is read exactly where a plus sign is surplus. -/
theorem FigureForm.signsApart_chars_iff {t : FigureForm} (h : t.IsReadable) :
    Text.SignsApart t.chars ↔ t.IsSingleSigned := by
  have hnil : Text.SignsApart [] := List.isChain_nil
  cases t with
  | plain n =>
    have happend : Text.SignsApart (n.chars ++ []) ↔ n.IsSingleSigned ∧ Text.SignsApart [] :=
      PlainForm.IsReadable.signsApart_append_iff h
    rw [List.append_nil] at happend
    rw [chars, happend]
    exact and_iff_left hnil
  | ratio a b =>
    have hopen : ∀ c ∈ ['('], Text.isSign c = false := Text.forall_mem_of_all (by decide)
    have hslash : ∀ c ∈ ['/'], Text.isSign c = false := Text.forall_mem_of_all (by decide)
    have hclose : ∀ c ∈ [')'], Text.isSign c = false := Text.forall_mem_of_all (by decide)
    have htext : (ratio a b).chars =
        ['('] ++ (a.chars ++ (['/'] ++ (b.chars ++ ([')'] ++ [])))) := by
      simp [chars]
    rw [htext, Text.signsApart_append_iff hopen, a.signsApart_append_iff h.1,
      Text.signsApart_append_iff hslash, b.signsApart_append_iff h.2,
      Text.signsApart_append_iff hclose]
    exact and_congr_right' (and_iff_left hnil)

namespace Literal

theorem plain?_trim_eq_some_iff {cs : List Char} {d : Decimal} :
    plain? (trim cs) = some d ↔
      ∃ p : PaddedForm, p.number.IsReadable ∧ cs = p.chars ∧ p.number.number? = some d := by
  rw [plain?_eq_some_iff]
  constructor
  · rintro ⟨n, hn, htext, hd⟩
    obtain ⟨before, after, hblank, hcs⟩ := Text.exists_blanks_trim cs
    refine ⟨⟨before, n, after, hblank⟩, hn, ?_, hd⟩
    rw [hcs, htext]
    rfl
  · rintro ⟨p, hp, rfl, hd⟩
    exact ⟨p.number, hp, Text.trim_append p.blank p.number.chars_ne_nil
      fun c hc => hp.isBlank_eq_false hc, hd⟩

theorem slash_not_mem_chars {p : PaddedForm} (hp : p.number.IsReadable) :
    ∀ c ∈ p.chars, decide (c ≠ '/') = true := by
  intro c hc
  rw [decide_eq_true_eq]
  rintro rfl
  exact absurd (PaddedForm.mem_alphabet hp hc (by decide)) (by decide)

theorem ratio?_append {a b : PaddedForm} (ha : a.number.IsReadable) (hb : b.number.IsReadable)
    {x y : Decimal} (hx : a.number.number? = some x) (hy : b.number.number? = some y) :
    ratio? (a.chars ++ '/' :: b.chars) = x.div? y := by
  have hbare := slash_not_mem_chars ha
  have htake : (a.chars ++ '/' :: b.chars).takeWhile (fun c => decide (c ≠ '/')) = a.chars := by
    rw [List.takeWhile_append_of_pos hbare, List.takeWhile_cons_of_neg (by decide),
      List.append_nil]
  have hdrop : (a.chars ++ '/' :: b.chars).dropWhile (fun c => decide (c ≠ '/')) =
      '/' :: b.chars := by
    rw [List.dropWhile_append_of_pos hbare, List.dropWhile_cons_of_neg (by decide)]
  have hnumerator := plain?_trim_eq_some_iff.2 ⟨a, ha, rfl, hx⟩
  have hdenominator := plain?_trim_eq_some_iff.2 ⟨b, hb, rfl, hy⟩
  rw [ratio?, hdrop, htake]
  simp only [hnumerator, hdenominator, Option.bind_eq_bind, Option.bind_some]

theorem exists_of_ratio? {cs : List Char} {d : Decimal} (h : ratio? cs = some d) :
    ∃ a b : PaddedForm, a.number.IsReadable ∧ b.number.IsReadable ∧
      cs = a.chars ++ '/' :: b.chars ∧ (FigureForm.ratio a b).number? = some d := by
  unfold ratio? at h
  split at h
  · cases h
  · rename_i slash rest hrest
    simp only [Option.bind_eq_bind, Option.bind_eq_some_iff] at h
    obtain ⟨x, hx, y, hy, hd⟩ := h
    obtain ⟨a, ha, hatext, hx⟩ := plain?_trim_eq_some_iff.1 hx
    obtain ⟨b, hb, hbtext, hy⟩ := plain?_trim_eq_some_iff.1 hy
    have hslash : slash = '/' := by
      have hhead := List.head?_dropWhile_not (fun c => decide (c ≠ '/')) cs
      rw [hrest] at hhead
      simpa using hhead
    refine ⟨a, b, ha, hb, ?_, ?_⟩
    · rw [← List.takeWhile_append_dropWhile (p := fun c => decide (c ≠ '/')) (l := cs), hatext,
        hrest, hslash, hbtext]
    · simp [FigureForm.number?, hx, hy, hd]

theorem enclosed?_eq_some_iff {cs inner : List Char} :
    enclosed? cs = some inner ↔ cs = '(' :: inner ++ [')'] := by
  unfold enclosed?
  split
  · rename_i rest
    constructor
    · intro h
      split at h
      · rename_i hlast
        rw [← Option.some.inj h, List.cons_append, List.dropLast_append_getLast?]
        exact hlast
      · cases h
    · intro h
      obtain rfl : rest = inner ++ [')'] := (List.cons.inj h).2
      simp
  · rename_i hopen
    constructor
    · intro h
      cases h
    · rintro rfl
      exact absurd rfl (hopen _)

theorem enclosed?_chars {n : PlainForm} (hn : n.IsReadable) : enclosed? n.chars = none := by
  rw [← Option.not_isSome_iff_eq_none, Option.isSome_iff_exists]
  rintro ⟨inner, hinner⟩
  have hmem : '(' ∈ n.chars := by
    rw [enclosed?_eq_some_iff.1 hinner]
    exact List.mem_cons_self
  exact absurd (hn.mem_alphabet hmem) (by decide)

theorem number?_of_ratio {cs : List Char} {a b : PaddedForm}
    (htext : trim cs = (FigureForm.ratio a b).chars) (ha : a.number.IsReadable)
    (hb : b.number.IsReadable) {x y : Decimal} (hx : a.number.number? = some x)
    (hy : b.number.number? = some y) : number? cs = x.div? y := by
  rw [number?, htext, FigureForm.chars, enclosed?_eq_some_iff.2 rfl]
  exact ratio?_append ha hb hx hy

/-- **Figures are read from their forms**, and nothing else is read. -/
theorem number?_eq_some_iff {cs : List Char} {d : Decimal} :
    number? cs = some d ↔
      ∃ t : FigureForm, t.IsReadable ∧ trim cs = t.chars ∧ t.number? = some d := by
  constructor
  · intro h
    unfold number? at h
    split at h
    · rename_i inner hinner
      obtain ⟨a, b, ha, hb, rfl, hd⟩ := exists_of_ratio? h
      exact ⟨.ratio a b, ⟨ha, hb⟩, enclosed?_eq_some_iff.1 hinner, hd⟩
    · obtain ⟨n, hn, htext, hd⟩ := plain?_eq_some_iff.1 h
      exact ⟨.plain n, hn, htext, hd⟩
  · rintro ⟨t, ht, htext, hd⟩
    cases t with
    | plain n =>
      rw [number?, htext, FigureForm.chars, enclosed?_chars ht]
      exact plain?_eq_some_iff.2 ⟨n, ht, rfl, hd⟩
    | ratio a b =>
      simp only [FigureForm.number?, Option.bind_eq_bind, Option.bind_eq_some_iff] at hd
      obtain ⟨x, hx, y, hy, hd⟩ := hd
      rw [number?_of_ratio htext ht.1 ht.2 hx hy, hd]

theorem parse_eq_ok_iff {text : String} {d : Decimal} :
    parse text = .ok d ↔
      ∃ t : FigureForm, t.IsReadable ∧ trim text.toList = t.chars ∧ t.number? = some d := by
  rw [← number?_eq_some_iff]
  unfold parse
  cases number? text.toList <;> simp

/-- A text that is no number is named in the fault, with the white space around it. -/
theorem exists_parse_or (text : String) :
    (∃ d, parse text = .ok d) ∨ parse text = .error (.invalidNumericLiteral text) := by
  unfold parse
  cases number? text.toList with
  | some d => exact Or.inl ⟨d, rfl⟩
  | none => exact Or.inr rfl

/-- A character that no figure has is never passed over, not even behind the last place
    that fits. -/
theorem parse_eq_error_of_mem {text : String} {c : Char} (hc : c ∈ text.toList)
    (hblank : Text.isBlank c = false) (hforeign : c ∉ FigureForm.alphabet) :
    parse text = .error (.invalidNumericLiteral text) := by
  rcases exists_parse_or text with ⟨d, hd⟩ | herror
  · obtain ⟨t, ht, htext, -⟩ := parse_eq_ok_iff.1 hd
    have hinside : c ∈ trim text.toList := Text.mem_trim hc hblank
    rw [htext] at hinside
    exact absurd (ht.mem_alphabet hinside hblank) hforeign
  · exact herror

example : parse "0.00000000000000000000000000017abc" =
    .error (.invalidNumericLiteral "0.00000000000000000000000000017abc") := by decide +kernel

-- the power of ten counts, and moves the rounded digit
example : parse "0.00000000000000000000000000017e28" = .ok ⟨false, 2, 0, by decide, by decide⟩ := by
  decide +kernel

/-- **What is read is a figure.**  A text is refused with itself as the fault, or it has the
    form of a figure in which a plus sign may be surplus; and it is a figure with single
    signs exactly when no two signs stand side by side. -/
theorem parse_form (text : String) :
    (∃ d, parse text = .ok d ∧
      (∃ t : FigureForm, t.IsReadable ∧ trim text.toList = t.chars ∧ t.number? = some d) ∧
      ((∃ t : FigureForm, t.IsSingleSigned ∧ trim text.toList = t.chars) ↔
        Text.SignsApart (trim text.toList))) ∨
    parse text = .error (.invalidNumericLiteral text) := by
  rcases exists_parse_or text with ⟨d, hd⟩ | herror
  · refine Or.inl ⟨d, hd, parse_eq_ok_iff.1 hd, ?_⟩
    constructor
    · rintro ⟨t, ht, htext⟩
      rw [htext]
      exact (FigureForm.signsApart_chars_iff ht.isReadable).2 ht
    · intro hapart
      obtain ⟨t, ht, htext, -⟩ := parse_eq_ok_iff.1 hd
      rw [htext] at hapart
      exact ⟨t, (FigureForm.signsApart_chars_iff ht).1 hapart, htext⟩
  · exact Or.inr herror

/-- The plus sign in front of a signed number is passed over, and so is the one behind the
    minus sign of an exponent; neither text is a figure with single signs. -/
theorem parse_surplusPlus :
    parse "+-5" = .ok ⟨true, 5, 0, by decide, by decide⟩ ∧
    parse "(1e-+2/4)" = .ok ⟨false, 25, 4, by decide, by decide⟩ ∧
    ∀ text ∈ ["+-5", "(1e-+2/4)"],
      ¬∃ t : FigureForm, t.IsSingleSigned ∧ trim text.toList = t.chars := by
  refine ⟨by decide +kernel, by decide +kernel, ?_⟩
  intro text htext
  rintro ⟨t, ht, hchars⟩
  have hapart : Text.SignsApart (trim text.toList) := by
    rw [hchars]
    exact (FigureForm.signsApart_chars_iff ht.isReadable).2 ht
  have hall : ∀ text ∈ ["+-5", "(1e-+2/4)"], ¬Text.SignsApart (trim text.toList) := by
    decide +kernel
  exact hall text htext hapart

end Literal

end PointOfSale

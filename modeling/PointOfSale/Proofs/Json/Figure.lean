/-
  PointOfSale/Proofs/Json/Figure.lean
  ===================================
  **Numbers of a JSON text as bare words.**  The text of a number consists of
  characters that end no bare word, so a scanner takes it as one.  What the word is
  read as is `Figure.reread?`: a whole number of 64 bits itself, any other number what
  its shortest digits denote.
-/
import PointOfSale.Json.Reader
import PointOfSale.Proofs.Text.Digits

namespace PointOfSale

open Text (digit? natural)

namespace Json

/-- The characters of bare words and numbers. -/
def isWordChar (c : Char) : Bool :=
  c = '-' || c = '+' || c = '.' || (digit? c).isSome || ('a' ≤ c && c ≤ 'z')

theorem endsBare_of_isWordChar {c : Char} (h : isWordChar c = true) : endsBare c = false := by
  have hne : ∀ d, isWordChar d = false → c ≠ d := by
    rintro d hd rfl
    rw [h] at hd
    cases hd
  simp [endsBare, isSpace, punctuation?, hne ' ' (by decide), hne '\t' (by decide),
    hne '\n' (by decide), hne '\r' (by decide), hne '\x7b' (by decide), hne '\x7d' (by decide),
    hne '[' (by decide), hne ']' (by decide), hne ':' (by decide), hne ',' (by decide),
    hne '"' (by decide)]

end Json

open Json (isWordChar bareToken?)

theorem isWordChar_digitChar {d : Nat} (hd : d < 10) : isWordChar (Nat.digitChar d) = true := by
  simp [isWordChar, Text.digit?_digitChar hd]

theorem isWordChar_natural {n : Nat} {c : Char} (hc : c ∈ natural n) : isWordChar c = true := by
  obtain ⟨ds, htext, -, hlt, -, -⟩ := Text.exists_natural n
  rw [htext] at hc
  obtain ⟨d, hd, rfl⟩ := List.mem_map.1 hc
  exact isWordChar_digitChar (hlt d hd)

namespace Binary64

theorem isWordChar_placePoint {digits : List Char} (h : ∀ c ∈ digits, isWordChar c = true)
    (whole : Int) {c : Char} (hc : c ∈ (placePoint digits whole).1 ∨ c ∈ (placePoint digits whole).2) :
    isWordChar c = true := by
  have hzero : isWordChar '0' = true := by decide
  unfold placePoint at hc
  split at hc
  · simp only [List.mem_singleton, List.mem_append, zeros, List.mem_replicate] at hc
    rcases hc with rfl | ⟨-, rfl⟩ | hc
    · exact hzero
    · exact hzero
    · exact h c hc
  · simp only [List.mem_append, zeros, List.mem_replicate] at hc
    rcases hc with (hc | ⟨-, rfl⟩) | hc
    · exact h c (List.mem_of_mem_take hc)
    · exact hzero
    · exact h c (List.mem_of_mem_drop hc)

theorem isWordChar_exponentChars {digits : List Char} (h : ∀ c ∈ digits, isWordChar c = true)
    (exponent : Int) {c : Char} (hc : c ∈ exponentChars digits exponent) : isWordChar c = true := by
  unfold exponentChars at hc
  simp only [List.mem_append, List.mem_cons] at hc
  rcases hc with (hc | hc) | rfl | hc | hc
  · exact h c (List.mem_of_mem_take hc)
  · split at hc
    · simp at hc
    · rcases List.mem_cons.1 hc with rfl | hc
      · decide
      · exact h c (List.mem_of_mem_drop hc)
  · decide
  · rw [hc]
    split <;> decide
  · exact isWordChar_natural hc

theorem isWordChar_chars {x : Binary64} {c : Char} (hc : c ∈ x.chars) : isWordChar c = true := by
  have hdigits : ∀ e ∈ natural (x.shortest .toEven).digits, isWordChar e = true :=
    fun e he => isWordChar_natural he
  rcases List.mem_append.1 hc with hc | hc
  · split at hc
    · rw [List.mem_singleton.1 hc]
      decide
    · simp at hc
  · unfold sizeChars at hc
    simp only at hc
    split at hc
    · rcases List.mem_append.1 hc with hc | hc
      · exact isWordChar_placePoint hdigits _ (Or.inl hc)
      · rcases List.mem_cons.1 hc with rfl | hc
        · decide
        · split at hc
          · rw [List.mem_singleton.1 hc]
            decide
          · exact isWordChar_placePoint hdigits _ (Or.inr hc)
    · exact isWordChar_exponentChars hdigits _ hc

end Binary64

namespace Figure

theorem isWordChar_chars {n : Figure} {c : Char} (hc : c ∈ n.chars) : isWordChar c = true := by
  cases n with
  | whole i =>
    simp only [chars, Text.integer] at hc
    split at hc
    · rcases List.mem_cons.1 hc with rfl | hc
      · decide
      · exact isWordChar_natural hc
    · exact isWordChar_natural hc
  | real x => exact Binary64.isWordChar_chars hc

/-- What the text of a number is read as. -/
def reread? (n : Figure) : Option Json :=
  match bareToken? n.chars with
  | some (.scalar j) => some j
  | _ => none

theorem bareToken?_of_reread? {n : Figure} {j : Json} (h : n.reread? = some j) :
    bareToken? n.chars = some (.scalar j) := by
  unfold reread? at h
  split at h
  · rename_i heq
    cases h
    exact heq
  · cases h

/-- A bare word that is written as a number is one. -/
theorem bareToken?_of_written? {cs : List Char} {w : Written} (h : written? cs = some w) :
    bareToken? cs = some (.scalar (match ofWritten? w with
      | some n => .number n
      | none => .unusable)) := by
  have hword : ∀ word ∈ ["null".toList, "true".toList, "false".toList], written? word = none := by
    decide
  have hne : ∀ word ∈ ["null".toList, "true".toList, "false".toList], cs ≠ word := by
    rintro word hmem rfl
    rw [hword _ hmem] at h
    cases h
  unfold bareToken?
  rw [if_neg (hne _ (by simp)), if_neg (hne _ (by simp)), if_neg (hne _ (by simp)), h,
    Option.map_some]
  cases ofWritten? w <;> rfl

/-! ### Whole numbers -/

theorem leadingDigits_append {ds : List Nat} (hds : ∀ d ∈ ds, d < 10) {rest : List Char}
    (hrest : ∀ c ∈ rest.head?, digit? c = none) :
    leadingDigits (ds.map Nat.digitChar ++ rest) = (ds, rest) := by
  induction ds with
  | nil =>
    cases rest with
    | nil => rfl
    | cons c cs => simp [leadingDigits, hrest c rfl]
  | cons d ds ih =>
    have htail : ∀ e ∈ ds, e < 10 := fun e he => hds e (List.mem_cons_of_mem d he)
    simp [leadingDigits, Text.digit?_digitChar (hds d List.mem_cons_self), ih htail]

theorem leadingDigits_map {ds : List Nat} (hds : ∀ d ∈ ds, d < 10) :
    leadingDigits (ds.map Nat.digitChar) = (ds, []) := by
  have hnone : ∀ c ∈ ([] : List Char).head?, digit? c = none := nofun
  simpa using leadingDigits_append hds hnone

theorem takeWhole_of_lt {ds : List Nat} {size : Nat}
    (h : ds.foldl (fun n d => n * 10 + d) size < wholeBound) :
    takeWhole size ds = (ds.foldl (fun n d => n * 10 + d) size, 0) := by
  induction ds generalizing size with
  | nil => rfl
  | cons d ds ih =>
    rw [List.foldl_cons] at h ⊢
    have hfits : size * 10 + d < wholeBound := lt_of_le_of_lt (Text.le_foldl_digits ds _) h
    rw [takeWhole, if_pos hfits, ih h]

/-- The number whose first digits are read, by what follows them. -/
def afterWhole? (negative : Bool) (front : List Nat) : List Char → Option Written
  | '.' :: rest =>
    match leadingDigits rest with
    | ([], _) => none
    | (back, rest) => (ending? rest).map fun e => ⟨negative, front, back, e⟩
  | rest => (ending? rest).map fun e => ⟨negative, front, [], e⟩

/-- Digits behind a sign or none, of which the first of several is not zero, begin a
    number. -/
theorem written?_of_leadingDigits (negative : Bool) {unsigned rest : List Char} {front : List Nat}
    (hdigits : leadingDigits unsigned = (front, rest)) (hne : front ≠ [])
    (hzero : front.head? = some 0 → front = [0]) :
    written? ((if negative then ['-'] else []) ++ unsigned) = afterWhole? negative front rest := by
  obtain ⟨d, ds, rfl⟩ := List.exists_cons_of_ne_nil hne
  have hplain : ∀ cs, unsigned ≠ '-' :: cs := by
    rintro cs rfl
    cases hdigits
  unfold written?
  split
  rename_i sign digits hread
  obtain ⟨rfl, rfl⟩ : sign = negative ∧ digits = unsigned := by
    cases negative with
    | true => exact (Prod.mk.inj hread).imp Eq.symm Eq.symm
    | false =>
      split at hread
      · rename_i hminus
        exact absurd hminus (hplain _)
      · exact (Prod.mk.inj hread).imp Eq.symm Eq.symm
  rw [hdigits]
  unfold afterWhole?
  split
  · rename_i heq
    cases heq
  · rename_i heq
    cases heq
    cases hzero rfl
  · rename_i heq
    cases heq
    rfl
  · rename_i hpoint heq
    cases heq
    split
    · exact (hpoint _ rfl).elim
    · rfl

theorem written?_map {ds : List Nat} (hds : ∀ d ∈ ds, d < 10) (hne : ds ≠ [])
    (hzero : ds.head? = some 0 → ds = [0]) (negative : Bool) :
    written? ((if negative then ['-'] else []) ++ ds.map Nat.digitChar) =
      some ⟨negative, ds, [], none⟩ := by
  rw [written?_of_leadingDigits negative (leadingDigits_map hds) hne hzero]
  rfl

theorem ofWritten?_whole (negative : Bool) {ds : List Nat} {n : Nat}
    (hvalue : Text.ofDigits 10 ds = n) (hn : n < wholeBound)
    (hnegative : negative = true → n ≠ 0 ∧ leastWhole ≤ -(n : Int)) :
    ofWritten? ⟨negative, ds, [], none⟩ = some (.whole (if negative then -(n : Int) else n)) := by
  have htake : takeWhole 0 ds = (n, 0) := by
    rw [← hvalue] at hn ⊢
    exact takeWhole_of_lt hn
  unfold ofWritten?
  simp only [htake]
  cases negative with
  | true => simp [hnegative rfl]
  | false => simp

/-- **A whole number of 64 bits is read back as it is.** -/
theorem reread?_whole {i : Int} (hlow : leastWhole ≤ i) (hhigh : i < wholeBound) :
    (whole i).reread? = some (.number (.whole i)) := by
  obtain ⟨ds, htext, hne, hlt, hvalue, hzero⟩ := Text.exists_natural i.natAbs
  have hbound : i.natAbs < wholeBound := by
    unfold leastWhole at hlow
    unfold wholeBound at hhigh ⊢
    omega
  have hchars : (whole i).chars = (if decide (i < 0) then ['-'] else []) ++ ds.map Nat.digitChar := by
    rw [← htext, chars, Text.integer]
    split <;> simp [*]
  have hwritten := written?_map hlt hne hzero (decide (i < 0))
  have hread : ofWritten? ⟨decide (i < 0), ds, [], none⟩ = some (.whole i) := by
    have hsigned : (if decide (i < 0) = true then -(i.natAbs : Int) else i.natAbs) = i := by
      by_cases hi : i < 0
      · rw [if_pos (by simpa using hi)]
        omega
      · rw [if_neg (by simpa using hi)]
        omega
    rw [ofWritten?_whole (decide (i < 0)) hvalue hbound, hsigned]
    · intro hnegative
      have hi : i < 0 := by simpa using hnegative
      omega
  have htoken := bareToken?_of_written? (hchars ▸ hwritten)
  rw [hread] at htoken
  rw [reread?, htoken]

end Figure

end PointOfSale

/-
  PointOfSale/Proofs/Json/Scanning.lean
  =====================================
  **Scanning what was written.**  A quoted text is scanned as the text that it quotes,
  whatever its characters are; a bare word up to a character that ends it; layout not at
  all.  `Scans text ts` says that a piece of text gives its tokens in front of
  everything that may follow it, and is kept by the ways in which the printer puts
  pieces together.
-/
import Mathlib.Data.List.Forall2
import PointOfSale.Json.Printer
import PointOfSale.Proofs.Json.Figure

namespace PointOfSale

/-! ### Hexadecimal digits -/

theorem Text.hexDigit?_digitChar {d : Nat} (hd : d < 16) :
    hexDigit? (Nat.digitChar d) = some d := by
  have hall : ∀ e < 16, hexDigit? (Nat.digitChar e) = some e := by decide
  exact hall d hd

namespace Json

/-! ### Quoted texts -/

/-- A piece of a quoted text that stands for a character: the character itself, or a unit
    that is no surrogate. -/
inductive Spells (c : Char) : Piece → Prop where
  | char : Spells c (.char c)
  | unit (h : c.toNat < 0x20) : Spells c (.unit c.toNat)

theorem joinPieces_cons {c : Char} {p : Piece} (h : Spells c p) (ps : List Piece) :
    joinPieces (p :: ps) = (joinPieces ps).map (c :: ·) := by
  cases h with
  | char => rfl
  | unit h =>
    have hhigh : isHighSurrogate c.toNat = false := by
      simp only [isHighSurrogate, Bool.and_eq_false_iff, decide_eq_false_iff_not]
      omega
    have hlow : isLowSurrogate c.toNat = false := by
      simp only [isLowSurrogate, Bool.and_eq_false_iff, decide_eq_false_iff_not]
      omega
    have hchar : unitChar? c.toNat = some c := by
      simp [unitChar?, hhigh, hlow, Char.ofNat_toNat]
    cases ps with
    | nil => simp [joinPieces, hchar]
    | cons q ps =>
      cases q with
      | char d => simp [joinPieces, hchar]
      | unit code => simp [joinPieces, hhigh, hchar]

/-- What is written for a character is scanned as a piece that stands for it. -/
theorem exists_scan_quoteChar (c : Char) :
    ∃ p, Spells c p ∧ ∀ seen cs,
      scan (.quoted seen) (quoteChar c ++ cs) = scan (.quoted (p :: seen)) cs := by
  unfold quoteChar
  split
  · subst_vars
    exact ⟨.char _, .char, fun _ _ => rfl⟩
  split
  · subst_vars
    exact ⟨.char _, .char, fun _ _ => rfl⟩
  split
  · subst_vars
    exact ⟨.char _, .char, fun _ _ => rfl⟩
  split
  · subst_vars
    exact ⟨.char _, .char, fun _ _ => rfl⟩
  split
  · subst_vars
    exact ⟨.char _, .char, fun _ _ => rfl⟩
  split
  · subst_vars
    exact ⟨.char _, .char, fun _ _ => rfl⟩
  split
  · subst_vars
    exact ⟨.char _, .char, fun _ _ => rfl⟩
  split
  · -- a control character, as four hexadecimal digits
    rename_i hcontrol
    refine ⟨.unit c.toNat, .unit hcontrol, ?_⟩
    intro seen cs
    have hfirst := Text.hexDigit?_digitChar (d := c.toNat / 16 % 16) (by omega)
    have hsecond := Text.hexDigit?_digitChar (d := c.toNat % 16) (by omega)
    have hzero : Text.hexDigit? '0' = some 0 := by decide
    have hcode : c.toNat / 16 % 16 * 16 + c.toNat % 16 = c.toNat := by omega
    simp [scan, Text.lastDigits, hfirst, hsecond, hzero, hcode]
  · -- a character that is written as it is
    rename_i hquote hslash _ _ _ _ _ hcontrol
    refine ⟨.char c, .char, ?_⟩
    intro seen cs
    simp [scan, hquote, hslash, hcontrol]

theorem exists_scan_quoteChars (cs : List Char) :
    ∃ ps, joinPieces ps = some cs ∧ ∀ seen rest,
      scan (.quoted seen) (cs.flatMap quoteChar ++ rest) = scan (.quoted (ps.reverse ++ seen)) rest := by
  induction cs with
  | nil => exact ⟨[], rfl, fun _ _ => rfl⟩
  | cons c cs ih =>
    obtain ⟨p, hspells, hchar⟩ := exists_scan_quoteChar c
    obtain ⟨ps, hjoin, hrest⟩ := ih
    refine ⟨p :: ps, ?_, ?_⟩
    · rw [joinPieces_cons hspells, hjoin, Option.map_some]
    · intro seen rest
      rw [List.flatMap_cons, List.append_assoc, hchar, hrest, List.reverse_cons, List.append_assoc]
      rfl

/-- **A quoted text is scanned as the text.** -/
theorem scan_quote (s : String) (rest : List Char) :
    scan .between (quote s ++ rest) = (scan .between rest).map (.text (some s) :: ·) := by
  obtain ⟨ps, hjoin, hscan⟩ := exists_scan_quoteChars s.toList
  have hopen : scan .between (quote s ++ rest) =
      scan (.quoted []) (s.toList.flatMap quoteChar ++ '"' :: rest) := by
    have hstart : start '"' = ([], .quoted []) := rfl
    simp [quote, scan, hstart]
  rw [hopen, hscan, scan, if_pos rfl, List.append_nil, List.reverse_reverse, textToken, hjoin,
    Option.map_some, String.ofList_toList]

/-! ### Bare words -/

/-- What may stand behind a bare word. -/
def EndsBare (rest : List Char) : Prop := ∀ c ∈ rest.head?, endsBare c = true

theorem endsBare_nil : EndsBare [] := by
  rintro c ⟨⟩

theorem endsBare_cons {c : Char} (cs : List Char) (h : endsBare c = true) : EndsBare (c :: cs) := by
  rintro d ⟨⟩
  exact h

theorem start_of_not_endsBare {c : Char} (h : endsBare c = false) : start c = ([], .bare [c]) := by
  simp only [endsBare, Bool.or_eq_false_iff, decide_eq_false_iff_not] at h
  obtain ⟨⟨hspace, hpunctuation⟩, hquote⟩ := h
  rw [Option.isSome_eq_false_iff, Option.isNone_iff_eq_none] at hpunctuation
  simp [start, hpunctuation, hspace, hquote]

theorem scan_bare (seen : List Char) {word rest : List Char}
    (hword : ∀ c ∈ word, endsBare c = false) (hrest : EndsBare rest) :
    scan (.bare seen) (word ++ rest) =
      (bareToken? (seen.reverse ++ word)).bind fun t => (scan .between rest).map (t :: ·) := by
  induction word generalizing seen with
  | nil =>
    cases rest with
    | nil =>
      have hend : scan (.bare seen) [] = (bareToken? seen.reverse).map ([·]) := by rw [scan]
      have hdone : scan .between [] = some [] := by rw [scan]
      rw [List.nil_append, List.append_nil, hend, hdone]
      cases bareToken? seen.reverse <;> rfl
    | cons c cs =>
      have hnext : scan .between (c :: cs) = (scan (start c).2 cs).map ((start c).1 ++ ·) := by
        rw [scan]
      have hend : scan (.bare seen) (c :: cs) = (bareToken? seen.reverse).bind fun word =>
          (scan (start c).2 cs).map fun ts => word :: (start c).1 ++ ts := by
        rw [scan, if_pos (hrest c rfl)]
        rfl
      rw [List.nil_append, List.append_nil, hend, hnext]
      cases bareToken? seen.reverse with
      | none => rfl
      | some t => cases scan (start c).2 cs <;> rfl
  | cons c word ih =>
    have hc := hword c List.mem_cons_self
    have htail : ∀ d ∈ word, endsBare d = false := fun d hd => hword d (List.mem_cons_of_mem c hd)
    rw [List.cons_append, scan, hc]
    simp only [Bool.false_eq_true, if_false]
    rw [ih (c :: seen) htail, List.reverse_cons, List.append_assoc, List.singleton_append]

theorem scan_word {word rest : List Char} (hne : word ≠ [])
    (hword : ∀ c ∈ word, endsBare c = false) (hrest : EndsBare rest) :
    scan .between (word ++ rest) =
      (bareToken? word).bind fun t => (scan .between rest).map (t :: ·) := by
  obtain ⟨c, word, rfl⟩ := List.exists_cons_of_ne_nil hne
  have hc := hword c List.mem_cons_self
  have htail : ∀ d ∈ word, endsBare d = false := fun d hd => hword d (List.mem_cons_of_mem c hd)
  rw [List.cons_append, scan, start_of_not_endsBare hc, scan_bare [c] htail hrest]
  rw [List.reverse_singleton, List.singleton_append]
  cases bareToken? (c :: word) with
  | none => rfl
  | some t => cases scan .between rest <;> rfl

/-! ### Layout -/

theorem scan_punctuation {c : Char} {t : Token} (h : punctuation? c = some t) (cs : List Char) :
    scan .between (c :: cs) = (scan .between cs).map (t :: ·) := by
  simp [scan, start, h]

theorem scan_blanks (count : Nat) (cs : List Char) :
    scan .between (List.replicate count ' ' ++ cs) = scan .between cs := by
  have hstart : start ' ' = ([], .between) := rfl
  induction count with
  | zero => rfl
  | succ count ih =>
    rw [List.replicate_succ, List.cons_append, scan, hstart, ih]
    simp

theorem scan_newLine (level : Nat) (cs : List Char) :
    scan .between (newLine level ++ cs) = scan .between cs := by
  have hstart : start '\n' = ([], .between) := rfl
  rw [newLine, List.cons_append, scan, hstart, scan_blanks]
  simp

/-! ### Pieces of text and their tokens -/

/-- A text gives its tokens in front of whatever may stand behind a bare word. -/
def Scans (text : List Char) (ts : List Token) : Prop :=
  ∀ rest, EndsBare rest → scan .between (text ++ rest) = (scan .between rest).map (ts ++ ·)

theorem Scans.word {word : List Char} {t : Token} (hword : ∀ c ∈ word, endsBare c = false)
    (htoken : bareToken? word = some t) : Scans word [t] := by
  intro rest hrest
  have hne : word ≠ [] := by
    rintro rfl
    cases htoken
  rw [scan_word hne hword hrest, htoken]
  rfl

theorem Scans.quote (s : String) : Scans (quote s) [.text (some s)] := by
  intro rest _
  exact scan_quote s rest

theorem Scans.newLine {text : List Char} {ts : List Token} (h : Scans text ts) (level : Nat) :
    Scans (newLine level ++ text) ts := by
  intro rest hrest
  rw [List.append_assoc, scan_newLine, h rest hrest]

/-- A key in front of a value. -/
theorem Scans.member {text : List Char} {ts : List Token} (h : Scans text ts) (key : String) :
    Scans (Json.quote key ++ ':' :: ' ' :: text) (.text (some key) :: .colon :: ts) := by
  intro rest hrest
  have hcolon : punctuation? ':' = some .colon := rfl
  rw [List.append_assoc, scan_quote, List.cons_append, scan_punctuation hcolon, List.cons_append,
    ← List.singleton_append, ← List.replicate_one, scan_blanks, h rest hrest]
  cases scan .between rest <;> rfl

/-- Rows of tokens with commas between them. -/
def commas (tss : List (List Token)) : List Token := List.intercalate [.comma] tss

theorem commas_cons_cons (ts us : List Token) (tss : List (List Token)) :
    commas (ts :: us :: tss) = ts ++ .comma :: commas (us :: tss) := by
  simp [commas, List.intercalate]

theorem separated_cons_cons (text other : List Char) (texts : List (List Char)) :
    separated (text :: other :: texts) = text ++ ',' :: separated (other :: texts) := by
  simp [separated, List.intercalate]

theorem scans_separated {texts : List (List Char)} {tss : List (List Token)}
    (h : List.Forall₂ Scans texts tss) : Scans (separated texts) (commas tss) := by
  induction h with
  | nil =>
    intro rest _
    simp [separated, commas]
  | @cons text ts texts tss hfirst htail ih =>
    cases htail with
    | nil =>
      intro rest hrest
      simpa [separated, commas] using hfirst rest hrest
    | @cons other us texts tss _ _ =>
      intro rest hrest
      have hcomma : punctuation? ',' = some .comma := rfl
      rw [separated_cons_cons, commas_cons_cons, List.append_assoc, List.cons_append,
        hfirst _ (endsBare_cons _ (by decide)), scan_punctuation hcomma, ih rest hrest]
      cases scan .between rest <;> simp

/-- Texts on lines of their own between brackets. -/
theorem scans_bracketed {first last : Char} {opens closes : Token} (level : Nat)
    {texts : List (List Char)} {tss : List (List Token)} (hfirst : punctuation? first = some opens)
    (hlast : punctuation? last = some closes) (h : List.Forall₂ Scans texts tss) :
    Scans (bracketed first last level texts) (opens :: commas tss ++ [closes]) := by
  intro rest _
  have hclosing : scan .between (last :: rest) = (scan .between rest).map (closes :: ·) :=
    scan_punctuation hlast rest
  unfold bracketed
  split
  · rename_i hempty
    rw [List.isEmpty_iff] at hempty
    subst hempty
    cases h
    rw [List.cons_append, scan_punctuation hfirst, List.singleton_append, hclosing]
    cases scan .between rest <;> rfl
  · have hlines : List.Forall₂ Scans (texts.map (Json.newLine (level + 1) ++ ·)) tss := by
      rw [List.forall₂_map_left_iff]
      exact h.imp fun _ _ hscans => hscans.newLine (level + 1)
    have hend : EndsBare (Json.newLine level ++ last :: rest) := endsBare_cons _ (by decide)
    have htext : first :: separated (texts.map (Json.newLine (level + 1) ++ ·)) ++
        Json.newLine level ++ [last] ++ rest =
          first :: (separated (texts.map (Json.newLine (level + 1) ++ ·)) ++
            (Json.newLine level ++ last :: rest)) := by
      simp
    rw [htext, scan_punctuation hfirst, scans_separated hlines _ hend, scan_newLine, hclosing]
    cases scan .between rest <;> simp

end Json

end PointOfSale

/-
  PointOfSale/Proofs/Json/Printed.lean
  ====================================
  **Reading JSON that was written.**  A value that is laid out as text is read back with
  the same shape, members and texts; only its numbers go through their own text
  (`ofString?_prettyText`).  Between text and value stand the tokens of the value: the
  text scans as these, and they drive the reader from any stack to the value on top of
  it.

  Main statements: `ofString?_prettyText`, and `ofString?_prettyText_number` for a number
  on its own.
-/
import PointOfSale.Json.Reader
import PointOfSale.Json.Record
import PointOfSale.Proofs.Json.Scanning

namespace PointOfSale.Json

/-! ### What a value is read back as -/

mutual

/-- The value that the text of a value spells, if there is one. -/
def reread? : Json → Option Json
  | .number n => n.reread?
  | .array items => (itemsReread? items).map .array
  | .object members => (membersReread? members).map .object
  | .unusable => some .null
  | j => some j

def itemsReread? : List Json → Option (List Json)
  | [] => some []
  | j :: js => (reread? j).bind fun k => (itemsReread? js).map (k :: ·)

def membersReread? : List (String × Json) → Option (List (String × Json))
  | [] => some []
  | (key, j) :: ms => (reread? j).bind fun k => (membersReread? ms).map ((key, k) :: ·)

end

/-! ### The tokens of a value -/

mutual

def tokens : Json → List Token
  | .array items => .openArray :: commas (itemsTokens items) ++ [.closeArray]
  | .object members => .openObject :: commas (membersTokens members) ++ [.closeObject]
  | .string s => [.text (some s)]
  | j => [.scalar j]

def itemsTokens : List Json → List (List Token)
  | [] => []
  | j :: js => tokens j :: itemsTokens js

def membersTokens : List (String × Json) → List (List Token)
  | [] => []
  | (key, j) :: ms => (.text (some key) :: .colon :: tokens j) :: membersTokens ms

end

/-! ### From text to tokens -/

/-- A given word, whose characters can be looked through. -/
theorem scans_literal {cs : List Char} {t : Token} (hword : cs.all (!endsBare ·) = true)
    (ht : bareToken? cs = some t) : Scans cs [t] :=
  .word (by simpa using hword) ht

theorem scans_null : Scans "null".toList [.scalar .null] := scans_literal (by decide) rfl

theorem scans_bool (b : Bool) : Scans (scalarChars (.bool b)) [.scalar (.bool b)] := by
  cases b with
  | true => exact scans_literal (by decide) rfl
  | false => exact scans_literal (by decide) rfl

theorem scans_number {n : Figure} {j : Json} (h : n.reread? = some j) : Scans n.chars [.scalar j] :=
  .word (fun _ hc => endsBare_of_isWordChar (Figure.isWordChar_chars hc))
    (Figure.bareToken?_of_reread? h)

/-- A bare word stands for a scalar. -/
theorem exists_scalar_of_bareToken? {word : List Char} {t : Token} (h : bareToken? word = some t) :
    ∃ j, t = .scalar j ∧ tokens j = [.scalar j] := by
  unfold bareToken? at h
  split at h
  · cases h
    exact ⟨_, rfl, rfl⟩
  split at h
  · cases h
    exact ⟨_, rfl, rfl⟩
  split at h
  · cases h
    exact ⟨_, rfl, rfl⟩
  · obtain ⟨w, -, rfl⟩ := Option.map_eq_some_iff.1 h
    split <;> exact ⟨_, rfl, rfl⟩

theorem tokens_of_reread? {n : Figure} {j : Json} (h : n.reread? = some j) :
    tokens j = [.scalar j] := by
  obtain ⟨k, hk, htokens⟩ := exists_scalar_of_bareToken? (Figure.bareToken?_of_reread? h)
  cases hk
  exact htokens

theorem bareToken?_of_reread?_none {n : Figure} (h : n.reread? = none) :
    bareToken? n.chars = none := by
  cases htoken : bareToken? n.chars with
  | none => rfl
  | some t =>
    obtain ⟨j, rfl, -⟩ := exists_scalar_of_bareToken? htoken
    simp [Figure.reread?, htoken] at h

mutual

/-- The text of a value scans as the tokens of what it is read back as. -/
theorem scans_pretty : ∀ (j k : Json), reread? j = some k → ∀ level, Scans (pretty level j) (tokens k)
  | .null, _, h, level => by
    cases h
    exact scans_null
  | .bool b, _, h, level => by
    cases h
    exact scans_bool b
  | .number n, k, h, level => by
    rw [tokens_of_reread? h]
    exact scans_number h
  | .string s, _, h, level => by
    cases h
    exact .quote s
  | .unusable, _, h, level => by
    cases h
    exact scans_null
  | .array items, _, h, level => by
    obtain ⟨ks, hks, rfl⟩ := Option.map_eq_some_iff.1 h
    exact scans_bracketed level rfl rfl (scans_prettyItems items ks hks (level + 1))
  | .object members, _, h, level => by
    obtain ⟨ks, hks, rfl⟩ := Option.map_eq_some_iff.1 h
    exact scans_bracketed level rfl rfl (scans_prettyMembers members ks hks (level + 1))

theorem scans_prettyItems : ∀ (js ks : List Json), itemsReread? js = some ks → ∀ level,
    List.Forall₂ Scans (prettyItems level js) (itemsTokens ks)
  | [], _, h, level => by
    cases h
    exact .nil
  | j :: js, _, h, level => by
    obtain ⟨k, hk, hrest⟩ := Option.bind_eq_some_iff.1 h
    obtain ⟨ks, hks, rfl⟩ := Option.map_eq_some_iff.1 hrest
    exact .cons (scans_pretty j k hk level) (scans_prettyItems js ks hks level)

theorem scans_prettyMembers : ∀ (ms ks : List (String × Json)), membersReread? ms = some ks →
    ∀ level, List.Forall₂ Scans (prettyMembers level ms) (membersTokens ks)
  | [], _, h, level => by
    cases h
    exact .nil
  | (key, j) :: ms, _, h, level => by
    obtain ⟨k, hk, hrest⟩ := Option.bind_eq_some_iff.1 h
    obtain ⟨ks, hks, rfl⟩ := Option.map_eq_some_iff.1 hrest
    exact .cons ((scans_pretty j k hk level).member key) (scans_prettyMembers ms ks hks level)

end

/-! ### From tokens to the value -/

namespace Reading

theorem exists_tokens (j : Json) : ∃ t ts, tokens j = t :: ts ∧ t ≠ .closeArray := by
  cases j
  case array items => exact ⟨.openArray, _, rfl, by simp⟩
  case object members => exact ⟨.openObject, _, rfl, by simp⟩
  case string s => exact ⟨.text (some s), [], rfl, by simp⟩
  all_goals exact ⟨_, [], rfl, by simp⟩

/-- Behind an opening bracket an item is read as it is behind a comma. -/
theorem foldlM_itemOrEnd (j : Json) (ts : List Token) (stack : List Frame) :
    (tokens j ++ ts).foldlM step? (.itemOrEnd stack) =
      (tokens j ++ ts).foldlM step? (.value (.items [] :: stack)) := by
  obtain ⟨t, us, htokens, hne⟩ := exists_tokens j
  have hstep : step? (.itemOrEnd stack) t = step? (.value (.items [] :: stack)) t := by
    cases t <;> first | rfl | exact absurd rfl hne
  rw [htokens, List.cons_append, List.foldlM_cons, List.foldlM_cons, hstep]

/-- The commas of a row begin with its first item. -/
theorem exists_commas_cons (ts : List Token) (tss : List (List Token)) :
    ∃ rest, commas (ts :: tss) = ts ++ rest := by
  cases tss with
  | nil => exact ⟨[], by simp [commas]⟩
  | cons us tss => exact ⟨_, commas_cons_cons ts us tss⟩

/-- Behind an opening brace a key is read as it is behind a comma. -/
theorem foldlM_keyOrEnd (name : Option String) (ts : List Token) (stack : List Frame) :
    (.text name :: ts).foldlM step? (.keyOrEnd stack) =
      (.text name :: ts).foldlM step? (.key (some []) stack) := rfl

/-- The tokens of a member, given those of its value. -/
theorem foldlM_memberTokens (name : String) {j : Json} (done : List (String × Json))
    (stack : List Frame)
    (hvalue : (tokens j).foldlM step? (.value (.member (some done) (some name) :: stack)) =
      some (put j (.member (some done) (some name) :: stack))) :
    (.text (some name) :: .colon :: tokens j).foldlM step? (.key (some done) stack) =
      some (.afterMember (some ((name, j) :: done)) stack) := hvalue

mutual

/-- **The tokens of a value put it into what is open around it.** -/
theorem foldlM_tokens : ∀ (j : Json) (stack : List Frame),
    (tokens j).foldlM step? (.value stack) = some (put j stack)
  | .null, stack => rfl
  | .bool _, stack => rfl
  | .number _, stack => rfl
  | .string _, stack => rfl
  | .unusable, stack => rfl
  | .array [], stack => rfl
  | .array (j :: js), stack => by
    have hitems := foldlM_itemsTokens (j :: js) (by simp) [] stack
    obtain ⟨rest, hrest⟩ := exists_commas_cons (tokens j) (itemsTokens js)
    rw [← itemsTokens] at hrest
    have hopen : step? (.value stack) .openArray = some (.itemOrEnd stack) := rfl
    rw [tokens, List.cons_append, List.foldlM_cons, hopen, Option.bind_eq_bind, Option.bind_some,
      hrest, List.append_assoc, foldlM_itemOrEnd, ← List.append_assoc, ← hrest,
      List.foldlM_append, hitems, Option.bind_eq_bind, Option.bind_some]
    simp [step?]
  | .object [], stack => rfl
  | .object ((name, j) :: ms), stack => by
    have hmembers := foldlM_membersTokens ((name, j) :: ms) (by simp) [] stack
    obtain ⟨rest, hrest⟩ :=
      exists_commas_cons (.text (some name) :: .colon :: tokens j) (membersTokens ms)
    rw [← membersTokens] at hrest
    have hopen : step? (.value stack) .openObject = some (.keyOrEnd stack) := rfl
    rw [tokens, List.cons_append, List.foldlM_cons, hopen, Option.bind_eq_bind, Option.bind_some,
      hrest, List.cons_append, List.cons_append, foldlM_keyOrEnd, ← List.cons_append,
      ← List.cons_append, ← hrest, List.foldlM_append, hmembers, Option.bind_eq_bind,
      Option.bind_some]
    simp [step?, Members.close]

/-- The tokens of a row of items, in an array that has some. -/
theorem foldlM_itemsTokens : ∀ (js : List Json), js ≠ [] → ∀ (done : List Json)
    (stack : List Frame),
    (commas (itemsTokens js)).foldlM step? (.value (.items done :: stack)) =
      some (.afterItem (js.reverse ++ done) stack)
  | [], h, _, _ => absurd rfl h
  | [j], _, done, stack => by
    have hitem := foldlM_tokens j (.items done :: stack)
    simpa [itemsTokens, commas, put] using hitem
  | j :: k :: ks, _, done, stack => by
    have hitem := foldlM_tokens j (.items done :: stack)
    have hrest := foldlM_itemsTokens (k :: ks) (by simp) (j :: done) stack
    have hcomma : step? (.afterItem (j :: done) stack) .comma =
        some (.value (.items (j :: done) :: stack)) := rfl
    rw [itemsTokens, itemsTokens, commas_cons_cons, List.foldlM_append, hitem, Option.bind_eq_bind,
      Option.bind_some, put, List.foldlM_cons, hcomma, Option.bind_eq_bind, Option.bind_some,
      ← itemsTokens, hrest]
    simp

/-- The tokens of a row of members, in an object that has some. -/
theorem foldlM_membersTokens : ∀ (ms : List (String × Json)), ms ≠ [] →
    ∀ (done : List (String × Json)) (stack : List Frame),
    (commas (membersTokens ms)).foldlM step? (.key (some done) stack) =
      some (.afterMember (some (ms.reverse ++ done)) stack)
  | [], h, _, _ => absurd rfl h
  | [(name, j)], _, done, stack => by
    have hmember := foldlM_memberTokens name done stack (foldlM_tokens j _)
    simpa [membersTokens, commas] using hmember
  | (name, j) :: (other, k) :: ms, _, done, stack => by
    have hmember := foldlM_memberTokens name done stack (foldlM_tokens j _)
    have hrest := foldlM_membersTokens ((other, k) :: ms) (by simp) ((name, j) :: done) stack
    have hcomma : step? (.afterMember (some ((name, j) :: done)) stack) .comma =
        some (.key (some ((name, j) :: done)) stack) := rfl
    rw [membersTokens, membersTokens, commas_cons_cons, List.foldlM_append, hmember,
      Option.bind_eq_bind, Option.bind_some, List.foldlM_cons, hcomma, Option.bind_eq_bind,
      Option.bind_some, ← membersTokens, hrest]
    simp

end

end Reading

theorem ofTokens?_tokens (j : Json) : ofTokens? (tokens j) = some j := by
  rw [ofTokens?, Reading.foldlM_tokens]
  rfl

/-! ### Reading back -/

/-- **A value that is laid out as text is read back**, with its numbers as their own texts
    spell them. -/
theorem ofString?_prettyText {j k : Json} (h : reread? j = some k) :
    ofString? j.prettyText = some k := by
  have hscan := scans_pretty j k h 0 [] endsBare_nil
  have hdone : scan .between [] = some [] := by rw [scan]
  rw [List.append_nil, hdone] at hscan
  rw [ofString?, ofChars?, prettyText, String.toList_ofList, hscan, Option.map_some,
    Option.bind_some, List.append_nil, ofTokens?_tokens]

/-- A number on its own is read as its text is. -/
theorem ofString?_prettyText_number (n : Figure) :
    ofString? (Json.number n).prettyText = n.reread? := by
  cases h : n.reread? with
  | some j => exact ofString?_prettyText h
  | none =>
    have htoken := bareToken?_of_reread?_none h
    have hword : ∀ c ∈ n.chars, endsBare c = false := fun c hc =>
      endsBare_of_isWordChar (Figure.isWordChar_chars hc)
    rw [ofString?, ofChars?, prettyText, String.toList_ofList]
    show (scan .between n.chars).bind ofTokens? = none
    by_cases hempty : n.chars = []
    · rw [hempty, scan]
      rfl
    · have hscan := scan_word hempty hword endsBare_nil
      rw [List.append_nil, htoken] at hscan
      rw [hscan]
      rfl

end PointOfSale.Json

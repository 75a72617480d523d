/-
  PointOfSale/Proofs/Wire/Menu.lean
  =================================
  **The records of the menu are restored** from what is written of them: identifiers,
  literals, fields with their pricing, and stock with its multipliers.
-/
import PointOfSale.Proofs.Json.Record
import PointOfSale.Wire.Menu

namespace PointOfSale

-- powers are the core ones, whatever else is in scope
attribute [local instance (high)] instPowNat

open Json (Restores isSteady_object restores_bool restores_string fields? member? membersUnder
  required)

/-! ### Identifiers -/

namespace Text

theorem mapM_hexDigit?_lastDigits (count n : Nat) :
    ∃ ds, (lastDigits 16 count n).mapM hexDigit? = some ds ∧ ofDigits 16 ds = n % 16 ^ count := by
  induction count generalizing n with
  | zero => exact ⟨[], rfl, by simp [ofDigits, Nat.mod_one]⟩
  | succ count ih =>
    obtain ⟨ds, hds, hvalue⟩ := ih (n / 16)
    have hlast := hexDigit?_digitChar (d := n % 16) (by omega)
    refine ⟨ds ++ [n % 16], ?_, ?_⟩
    · simp [lastDigits, List.mapM_append, hds, hlast]
    · rw [ofDigits, List.foldl_append]
      rw [ofDigits] at hvalue
      rw [hvalue, List.foldl_cons, List.foldl_nil, Nat.pow_succ', Nat.mod_mul, Nat.mul_comm,
        Nat.add_comm]

theorem isHex_of_mem_lastDigits {count n : Nat} {c : Char} (hc : c ∈ lastDigits 16 count n) :
    ∃ d < 16, c = Nat.digitChar d := by
  induction count generalizing n with
  | zero => cases hc
  | succ count ih =>
    rcases List.mem_append.1 hc with hc | hc
    · exact ih hc
    · exact ⟨n % 16, by omega, List.mem_singleton.1 hc⟩

end Text

namespace Uuid

theorem ofHyphenated?_groups {a b c d e : List Char} (ha : a.length = 8) (hb : b.length = 4)
    (hc : c.length = 4) (hd : d.length = 4) (he : e.length = 12) :
    ofHyphenated? (a ++ '-' :: b ++ '-' :: c ++ '-' :: d ++ '-' :: e) =
      ofDigits? (a ++ b ++ c ++ d ++ e) := by
  have hmarks : [8, 13, 18, 23].all fun i =>
      (a ++ '-' :: b ++ '-' :: c ++ '-' :: d ++ '-' :: e)[i]? = some '-' := by
    simp [List.getElem?_append, ha, hb, hc, hd]
  rw [ofHyphenated?, if_pos ⟨by simp [ha, hb, hc, hd, he], hmarks⟩]
  simp (disch := omega) [List.drop_append, List.drop_eq_nil_of_le, ha, hb, hc, hd]

theorem chars_eq_groups (u : Uuid) : ∃ a b c d e : List Char, a.length = 8 ∧ b.length = 4 ∧
    c.length = 4 ∧ d.length = 4 ∧ e.length = 12 ∧
    a ++ b ++ c ++ d ++ e = Text.lastDigits 16 32 u.bits.toNat ∧
    u.chars = a ++ '-' :: b ++ '-' :: c ++ '-' :: d ++ '-' :: e := by
  have hlength := Text.length_lastDigits 16 32 u.bits.toNat
  have hsplit : ∀ (n m : Nat) (cs : List Char), (cs.drop n).take m ++ cs.drop (n + m) = cs.drop n := by
    intro n m cs
    rw [← List.drop_drop, List.take_append_drop]
  refine ⟨_, _, _, _, _, ?_, ?_, ?_, ?_, ?_, ?_, rfl⟩
  · simp [hlength]
  · simp [hlength]
  · simp [hlength]
  · simp [hlength]
  · simp [hlength]
  · rw [List.append_assoc, hsplit 16 4, List.append_assoc, hsplit 12 4, List.append_assoc,
      hsplit 8 4, List.take_append_drop]

theorem ofString?_text (u : Uuid) : ofString? u.text = some u := by
  obtain ⟨a, b, c, d, e, ha, hb, hc, hd, he, hall, hchars⟩ := chars_eq_groups u
  obtain ⟨ds, hds, hvalue⟩ := Text.mapM_hexDigit?_lastDigits 32 u.bits.toNat
  have hread : ofHyphenated? u.chars = some u := by
    have hlength := Text.length_lastDigits 16 32 u.bits.toNat
    have hsmall : u.bits.toNat < 16 ^ 32 := u.bits.isLt
    rw [hchars, ofHyphenated?_groups ha hb hc hd he, hall, ofDigits?, if_pos hlength, hds,
      Option.map_some, hvalue, Nat.mod_eq_of_lt hsmall, ofNat, BitVec.ofNat_toNat, BitVec.setWidth_eq]
  -- the first character is a hexadecimal digit, so no other form is taken
  obtain ⟨first, rest, hfirst⟩ : ∃ first rest, a = first :: rest :=
    List.exists_cons_of_length_pos (by omega)
  have hmem : first ∈ Text.lastDigits 16 32 u.bits.toNat := by
    rw [← hall, hfirst]
    simp
  obtain ⟨digit, hdigit, rfl⟩ := Text.isHex_of_mem_lastDigits hmem
  have hopen : Nat.digitChar digit ≠ '\x7b' ∧ (Nat.digitChar digit).toLower ≠ 'u' := by
    have hforms : ∀ n < 16, Nat.digitChar n ≠ '\x7b' ∧ (Nat.digitChar n).toLower ≠ 'u' := by decide
    exact hforms digit hdigit
  have hlength : u.chars.length ≠ 32 := by
    rw [hchars]
    simp [ha, hb, hc, hd, he]
  have hmark : (u.chars.take 9).map Char.toLower ≠ resourceMark := by
    rw [hchars, hfirst]
    intro h
    exact hopen.2 (List.cons.inj h).1
  have hbrace : ∀ rest, u.chars ≠ '\x7b' :: rest := by
    intro rest' h
    rw [hchars, hfirst] at h
    exact hopen.1 (List.cons.inj h).1
  rw [ofString?, text, String.toList_ofList]
  unfold ofChars?
  split
  · rename_i rest' h
    exact absurd h (hbrace rest')
  · rw [if_neg hlength, if_neg hmark, hread]

theorem restores : Restores toJson ofJson? := by
  constructor
  · intro u
    rfl
  · intro u
    rw [toJson, ofJson?, Json.string?, Option.bind_some, ofString?_text]

end Uuid

/-! ### Literals, and the names of cases -/

theorem Literal.restores : Restores toJson ofJson? := ⟨fun _ => rfl, fun _ => rfl⟩

theorem PriceBy.restores : Restores toJson ofJson? := by
  constructor
  · intro p
    rfl
  · intro p
    cases p <;> decide

theorem FieldKind.restores : Restores toJson ofJson? := by
  constructor
  · intro k
    rfl
  · intro k
    cases k <;> rfl

/-! ### Fields -/

theorem PriceDependency.restores : Restores toJson ofJson? := by
  have hvalues := Literal.restores.table.table
  constructor
  · intro d
    apply isSteady_object
    simp [hvalues.steady]
  · intro d
    simp [toJson, ofJson?, fields?, member?, membersUnder, Json.optional, restores_string.read,
      hvalues.read]

theorem Pricing.restores : Restores toJson ofJson? := by
  have hperOption := Literal.restores.table
  have hdependsOn := PriceDependency.restores.option fun _ => nofun
  constructor
  · intro p
    apply isSteady_object
    simp [PriceBy.restores.steady, Literal.restores.steady, hperOption.steady, hdependsOn.steady]
  · intro p
    simp [toJson, ofJson?, fields?, member?, membersUnder, Json.optional, restores_bool.read,
      restores_string.read, PriceBy.restores.read, Literal.restores.read, hperOption.read,
      hdependsOn.read]

theorem Field.restores : Restores toJson ofJson? := by
  have hoptions := restores_string.list
  have hplaceholder := restores_string.option fun _ => nofun
  constructor
  · intro f
    apply isSteady_object
    cases f.placeholder <;> simp [FieldKind.restores.steady, hoptions.steady, Pricing.restores.steady]
  · rintro ⟨label, kind, options, _ | placeholder, pricing⟩
    -- a placeholder that is not written is read as none
    · simp [toJson, ofJson?, fields?, member?, membersUnder, required, Json.optional,
        restores_string.read, FieldKind.restores.read, hoptions.read, Pricing.restores.read]
    · have hread : Json.nullable? Json.string? (.string placeholder) = some (some placeholder) :=
        hplaceholder.read (some placeholder)
      simp [toJson, ofJson?, fields?, member?, membersUnder, required, Json.optional,
        restores_string.read, FieldKind.restores.read, hoptions.read, Pricing.restores.read,
        hread]

/-! ### Stock -/

theorem StockSource.restores : Restores toJson ofJson? := by
  have hamounts := Literal.restores.table
  constructor
  · intro s
    apply isSteady_object
    simp [hamounts.steady]
  · intro s
    simp [toJson, ofJson?, fields?, member?, membersUnder, Json.optional, restores_string.read,
      hamounts.read]

/-- No object is a literal, so a multiplier is read as it was written, a table without
    entries included. -/
theorem MultiplierEntry.restores : Restores toJson ofJson? := by
  have htable := Literal.restores.table
  constructor
  · rintro (l | t)
    · exact Literal.restores.steady l
    · exact htable.steady t
  · rintro (l | t)
    · rfl
    · have hliteral : Literal.ofJson? (Json.ofTable Literal.toJson t) = none := rfl
      rw [toJson, ofJson?, hliteral, htable.read]
      rfl

theorem StockMultiplier.restores : Restores toJson ofJson? := by
  have hnames := restores_string.list
  have hamounts := MultiplierEntry.restores.table
  constructor
  · intro m
    apply isSteady_object
    simp [hnames.steady, hamounts.steady]
  · intro m
    simp [toJson, ofJson?, fields?, member?, membersUnder, Json.optional, hnames.read, hamounts.read]

theorem Stock.restores : Restores toJson ofJson? := by
  constructor
  · intro s
    apply isSteady_object
    simp [StockSource.restores.steady, StockMultiplier.restores.steady]
  · intro s
    simp [toJson, ofJson?, fields?, member?, membersUnder, Json.optional, restores_bool.read,
      restores_string.read, StockSource.restores.read, StockMultiplier.restores.read]

end PointOfSale

/-
  PointOfSale/Proofs/Json/Real.lean
  =================================
  **Floating-point numbers of a JSON text.**  Every value is written as a number, with a
  point or with a power of ten (`exists_written`).  It is read as its digits divided by a
  power of ten, and for a value that stands for a decimal of few digits both are exact:
  so the quotient is rounded once, to the value that was written (`reread?_real`).
-/
import PointOfSale.Proofs.Binary64.Printed
import PointOfSale.Proofs.Json.Figure

namespace PointOfSale.Figure

open Binary64 (ofSize? exponentChars pointRows digitsBound exactPlaces)
open Text (digit? natural ofDigits)

/-! ### The forms of a written number -/

section Forms

variable (negative : Bool) {front back : List Nat}

theorem written?_point (hfront : ∀ d ∈ front, d < 10) (hne : front ≠ [])
    (hzero : front.head? = some 0 → front = [0]) (hback : ∀ d ∈ back, d < 10) (hnil : back ≠ []) :
    written? ((if negative then ['-'] else []) ++
        (front.map Nat.digitChar ++ '.' :: back.map Nat.digitChar)) =
      some ⟨negative, front, back, none⟩ := by
  have hpoint : ∀ c ∈ ('.' :: back.map Nat.digitChar).head?, digit? c = none := by
    rintro _ ⟨⟩
    rfl
  obtain ⟨d, ds, rfl⟩ := List.exists_cons_of_ne_nil hnil
  rw [written?_of_leadingDigits negative (leadingDigits_append hfront hpoint) hne hzero,
    afterWhole?, leadingDigits_map hback]
  rfl

theorem power?_natural (p : Int) :
    power? ((if p < 0 then '-' else '+') :: natural p.natAbs) = some p := by
  obtain ⟨ds, htext, hne, hlt, hvalue, -⟩ := Text.exists_natural p.natAbs
  obtain ⟨d, ds, rfl⟩ := List.exists_cons_of_ne_nil hne
  have hsigned : (if p < 0 then -(p.natAbs : Int) else p.natAbs) = p := by
    split <;> omega
  rw [htext]
  split at hsigned
  · rw [if_pos ‹_›, power?]
    simp only [leadingDigits_map hlt, hvalue, hsigned, if_true]
  · rw [if_neg ‹_›, power?]
    simp only [leadingDigits_map hlt, hvalue, hsigned, Bool.false_eq_true, if_false]

theorem written?_exponentChars {d : Nat} (hds : ∀ e ∈ d :: back, e < 10) (p : Int) :
    written? ((if negative then ['-'] else []) ++ exponentChars ((d :: back).map Nat.digitChar) p) =
      some ⟨negative, [d], back, some p⟩ := by
  have hfirst : ∀ e ∈ [d], e < 10 := by
    simpa using hds d List.mem_cons_self
  have hback : ∀ e ∈ back, e < 10 := fun e he => hds e (List.mem_cons_of_mem d he)
  have hending : ending? ('e' :: (if p < 0 then '-' else '+') :: natural p.natAbs) =
      some (some p) := by
    rw [ending?, if_pos (Or.inl rfl), power?_natural, Option.map_some]
  have hmark : ∀ c ∈ ('e' :: (if p < 0 then '-' else '+') :: natural p.natAbs).head?,
      digit? c = none := by
    rintro _ ⟨⟩
    rfl
  unfold exponentChars
  cases back with
  | nil =>
    have hread := leadingDigits_append hfirst hmark
    rw [List.map_cons, List.map_nil] at hread
    refine (written?_of_leadingDigits negative hread (by simp) (by simp)).trans ?_
    rw [afterWhole?, hending]
    · rfl
    · rintro rest heq
      cases heq
  | cons e es =>
    have hpoint : ∀ c ∈ ('.' :: ((e :: es).map Nat.digitChar ++
        'e' :: (if p < 0 then '-' else '+') :: natural p.natAbs)).head?, digit? c = none := by
      rintro _ ⟨⟩
      rfl
    have hread := leadingDigits_append hfirst hpoint
    refine (written?_of_leadingDigits negative hread (by simp) (by simp)).trans ?_
    rw [afterWhole?, leadingDigits_append hback hmark]
    simp only [hending]
    rfl

end Forms

/-! ### The number that is written -/

namespace Written

/-- All digits as one number. -/
def digits (w : Written) : Nat := ofDigits 10 (w.whole ++ w.fractional)

/-- The power of ten that the last digit counts. -/
def power (w : Written) : Int := w.exponent.getD 0 - w.fractional.length

/-- The number has a point or a power of ten. -/
def IsReal (w : Written) : Prop := w.fractional ≠ [] ∨ w.exponent ≠ none

theorem IsReal.not_whole {w : Written} (h : w.IsReal) (p : Prop) :
    ¬(p ∧ w.fractional = [] ∧ w.exponent = none) := by
  rintro ⟨-, hfractional, hexponent⟩
  rcases h with h | h
  · exact h hfractional
  · exact h hexponent

/-- A number with a point or a power of ten spells digits and their power of ten: as they
    are, or with a zero behind the point where all digits are in front of it. -/
structure Spells (w : Written) (negative : Bool) (digits : Nat) (exponent : Int) : Prop where
  negative_eq : w.negative = negative
  isReal : w.IsReal
  of_places : exponent < 0 → w.digits = digits ∧ w.power = exponent
  of_whole : 0 ≤ exponent → (natural digits).length + exponent ≤ 16 →
    w.digits = digits * 10 ^ exponent.toNat * 10 ∧ w.power = -1

end Written

theorem takeFractional_of_lt {ds : List Nat} {size : Nat}
    (h : ds.foldl (fun n d => n * 10 + d) size < wholeBound) :
    takeFractional size ds = (ds.foldl (fun n d => n * 10 + d) size, ds.length) := by
  induction ds generalizing size with
  | nil => rfl
  | cons d ds ih =>
    rw [List.foldl_cons] at h ⊢
    have hfits : size * 10 + d < wholeBound := lt_of_le_of_lt (Text.le_foldl_digits ds _) h
    rw [takeFractional, if_pos hfits, ih h]
    rfl

/-- Digits that 64 bits hold are all taken. -/
theorem ofWritten?_of_isReal {w : Written} (h : w.IsReal) (hfits : w.digits < wholeBound) :
    ofWritten? w =
      (scaled? w.digits w.power).map fun x => .real (x.withSign w.negative) := by
  rw [Written.digits, Text.ofDigits_append] at hfits
  have hwhole : takeWhole 0 w.whole = (ofDigits 10 w.whole, 0) :=
    takeWhole_of_lt (lt_of_le_of_lt (Text.le_foldl_digits _ _) hfits)
  have hpower : ((0 : Nat) : Int) - w.fractional.length + w.exponent.getD 0 = w.power := by
    rw [Written.power]
    omega
  unfold ofWritten?
  simp only [hwhole, takeFractional_of_lt hfits, hpower]
  rw [if_neg (h.not_whole _), ← Text.ofDigits_append]
  rfl

/-! ### The text of a value -/

section Spelled

variable (negative : Bool) {ds : List Nat} {exponent : Int}

/-- Digits with a point among them or beside them. -/
theorem exists_written_point (hlt : ∀ d ∈ ds, d < 10) (hne : ds ≠ [])
    (hzero : ds.head? = some 0 → ds = [0] ∧ exponent = 0) :
    ∃ w, written? ((if negative then ['-'] else []) ++
          ((pointRows ds (ds.length + exponent)).1.map Nat.digitChar ++
            '.' :: (if ((pointRows ds (ds.length + exponent)).2.map Nat.digitChar).isEmpty then ['0']
              else (pointRows ds (ds.length + exponent)).2.map Nat.digitChar))) = some w ∧
      w.Spells negative (ofDigits 10 ds) exponent := by
  obtain ⟨hdigits, hplaces⟩ := Binary64.ofDigits_pointRows ds exponent
  have hsmall : ∀ d, d ∈ (pointRows ds (ds.length + exponent)).1 ∨
      d ∈ (pointRows ds (ds.length + exponent)).2 → d < 10 :=
    fun d hd => Binary64.lt_ten_of_mem_pointRows hlt hd
  have hnil : (pointRows ds (ds.length + exponent)).1 ≠ [] := Binary64.pointRows_fst_ne_nil hne
  have hhead : (pointRows ds (ds.length + exponent)).1.head? = some 0 →
      (pointRows ds (ds.length + exponent)).1 = [0] := by
    apply Binary64.pointRows_fst_of_head hne
    intro hfirst
    obtain ⟨hds, hexponent⟩ := hzero hfirst
    rw [hds, hexponent]
    exact ⟨rfl, rfl⟩
  generalize pointRows ds (ds.length + exponent) = rows at hdigits hplaces hsmall hnil hhead ⊢
  obtain ⟨front, back⟩ := rows
  dsimp only at hdigits hplaces hsmall hnil hhead ⊢
  have hfront : ∀ d ∈ front, d < 10 := fun d hd => hsmall d (.inl hd)
  cases back with
  | nil =>
    have hlast : ∀ d ∈ [0], d < 10 := by simp
    refine ⟨_, written?_point negative hfront hnil hhead hlast (List.cons_ne_nil 0 []), rfl,
      .inl (List.cons_ne_nil 0 []), ?_, ?_⟩
    · intro hexponent
      rw [List.length_nil] at hplaces
      omega
    · intro _ _
      rw [List.append_nil] at hdigits
      rw [Written.digits, Text.ofDigits_concat, hdigits]
      exact ⟨rfl, rfl⟩
  | cons d back =>
    have hback : ∀ e ∈ d :: back, e < 10 := fun e he => hsmall e (.inr he)
    refine ⟨_, written?_point negative hfront hnil hhead hback (List.cons_ne_nil d back), rfl,
      .inl (List.cons_ne_nil d back), ?_, ?_⟩
    · intro hexponent
      have hnone : exponent.toNat = 0 := by omega
      rw [hnone, pow_zero, mul_one] at hdigits
      refine ⟨hdigits, ?_⟩
      rw [Written.power, hplaces, Option.getD_none]
      omega
    · intro hexponent _
      rw [List.length_cons] at hplaces
      omega

/-- Digits behind a first one, with a power of ten. -/
theorem exists_written_power (hlt : ∀ d ∈ ds, d < 10) (hne : ds ≠ []) :
    ∃ w, written? ((if negative then ['-'] else []) ++
          exponentChars (ds.map Nat.digitChar) (ds.length + exponent - 1)) = some w ∧
      w.negative = negative ∧ w.IsReal ∧ w.digits = ofDigits 10 ds ∧ w.power = exponent := by
  obtain ⟨d, ds, rfl⟩ := List.exists_cons_of_ne_nil hne
  refine ⟨_, written?_exponentChars negative hlt _, rfl, .inr (Option.some_ne_none _), rfl, ?_⟩
  rw [Written.power, List.length_cons, Option.getD_some]
  push_cast
  ring

end Spelled

/-- **The text of every value is a number** that spells its shortest digits. -/
theorem exists_written (x : Binary64) :
    ∃ w, written? x.chars = some w ∧
      w.Spells x.negative (x.shortest .toEven).digits (x.shortest .toEven).exponent := by
  have hplain : (x.shortest .toEven).digits = 0 → (x.shortest .toEven).exponent = 0 :=
    Binary64.exponent_of_digits_eq_zero
  unfold Binary64.chars Binary64.sizeChars
  generalize x.shortest .toEven = shortest at hplain ⊢
  obtain ⟨ds, htext, hne, hlt, hvalue, hzero⟩ := Text.exists_natural shortest.digits
  have hhead : ds.head? = some 0 → ds = [0] ∧ shortest.exponent = 0 := by
    intro hfirst
    have hds := hzero hfirst
    rw [hds] at hvalue
    exact ⟨hds, hplain hvalue.symm⟩
  simp only [htext, List.length_map]
  rw [← hvalue]
  by_cases hpositional : Binary64.positionalExponents.1 ≤ (ds.length : Int) + shortest.exponent - 1 ∧
      (ds.length : Int) + shortest.exponent - 1 ≤ Binary64.positionalExponents.2
  · rw [if_pos hpositional, Binary64.placePoint_map]
    exact exists_written_point x.negative hlt hne hhead
  · rw [if_neg hpositional]
    obtain ⟨w, hwritten, hsign, hreal, hdigits, hpower⟩ := exists_written_power x.negative hlt hne
    refine ⟨w, hwritten, hsign, hreal, fun _ => ⟨hdigits, hpower⟩, ?_⟩
    -- digits that all fit in front of a point are written with it
    intro hexponent hlength
    have hexponents : Binary64.positionalExponents = (-5, 15) := rfl
    have hpos := List.length_pos_of_ne_nil hne
    rw [hvalue, htext, List.length_map] at hlength
    rw [hexponents] at hpositional
    omega

theorem exists_real_of_ofWritten? {w : Written} (h : w.IsReal) {n : Figure}
    (hn : ofWritten? w = some n) : ∃ x, n = .real x := by
  unfold ofWritten? at hn
  dsimp only at hn
  rw [if_neg (h.not_whole _)] at hn
  obtain ⟨x, -, rfl⟩ := Option.map_eq_some_iff.1 hn
  exact ⟨_, rfl⟩

/-- The text of every value is read as a value, or as a number that is too great. -/
theorem reread?_real_or (x : Binary64) :
    (∃ y, (real x).reread? = some (.number (.real y))) ∨ (real x).reread? = some .unusable := by
  obtain ⟨w, hwritten, hw⟩ := exists_written x
  have htoken := bareToken?_of_written? hwritten
  unfold reread?
  rw [chars, htoken]
  cases hn : ofWritten? w with
  | some n =>
    obtain ⟨y, rfl⟩ := exists_real_of_ofWritten? hw.isReal hn
    exact .inl ⟨y, rfl⟩
  | none => exact .inr rfl

theorem exists_reread?_real (x : Binary64) : ∃ j, (real x).reread? = some j ∧ j ≠ .null := by
  rcases reread?_real_or x with ⟨y, hread⟩ | hread
  · exact ⟨_, hread, nofun⟩
  · exact ⟨_, hread, nofun⟩

/-! ### Reading a value back -/

theorem lowered?_eq (x : Binary64) {places : Nat} (hplaces : places ≤ exactPlaces) :
    lowered? x places = ofSize? (x.size / 10 ^ places) := by
  obtain ⟨ten, hten, htensize⟩ := Binary64.exists_tenTo? hplaces
  have hnonzero : ten.size ≠ 0 := by
    rw [htensize]
    positivity
  have hreach : places ≤ greatestPower := by
    unfold greatestPower
    unfold exactPlaces at hplaces
    omega
  unfold lowered?
  rw [if_pos hreach]
  show (Binary64.tenTo? places).bind x.div? = _
  rw [hten, Option.bind_some, Binary64.div?_eq x hnonzero, htensize]

theorem scaled?_neg {size places : Nat} {x : Binary64} (hsize : ofSize? size = some x)
    (hx : x.size = size) (hpos : 0 < places) (hplaces : places ≤ exactPlaces) :
    scaled? size (-places) = ofSize? (size / 10 ^ places) := by
  have hnegative : -(places : Int) < 0 := by omega
  have hlowered := lowered?_eq x hplaces
  rw [hx] at hlowered
  unfold scaled?
  rw [Binary64.nearest?_one, hsize, Option.bind_eq_bind, Option.bind_some, if_pos hnegative,
    Int.natAbs_neg, Int.natAbs_natCast, hlowered]

theorem length_natural_le {k z places : Nat} (hk : 0 < k) (h : k * 10 ^ z < 10 ^ places) :
    (natural k).length + z ≤ places := by
  have hpower : 10 ^ z < 10 ^ places := lt_of_le_of_lt (Nat.le_mul_of_pos_left _ hk) h
  have hlt : z < places := (Nat.pow_lt_pow_iff_right (by norm_num)).1 hpower
  obtain ⟨rest, rfl⟩ := Nat.exists_eq_add_of_le hlt.le
  have hsmall : k < 10 ^ rest := by
    rw [pow_add, mul_comm] at h
    exact Nat.lt_of_mul_lt_mul_left h
  have hlength := (Nat.length_toDigits_le_iff (by norm_num) (by omega)).2 hsmall
  rw [natural]
  omega

section Reread

variable {n s : Nat} {x : Binary64}

/-- Digits of which some stand behind the point are divided by their power of ten. -/
theorem scaled?_of_places {k z places : Nat} (hn : k * 10 ^ z < digitsBound) (hpos : 0 < places)
    (hs : z + places ≤ exactPlaces)
    (h : ofSize? ((k * 10 ^ z : ℕ) / 10 ^ (z + places)) = some x) :
    scaled? k (-places) = some x := by
  have hk : k ≤ k * 10 ^ z := Nat.le_mul_of_pos_right k (by positivity)
  unfold digitsBound at hn
  obtain ⟨y, hy, hysize⟩ := Binary64.exists_ofSize?_nat (by omega : k < 2 ^ 53)
  have hquotient : (k : ℚ) / 10 ^ places = (k * 10 ^ z : ℕ) / 10 ^ (z + places) := by
    rw [pow_add]
    push_cast
    field_simp
  rw [scaled?_neg hy hysize hpos (by omega), hquotient, h]

/-- A whole number that is written with a zero behind the point: ten times the number is
    exact, because it is even. -/
theorem scaled?_of_whole {whole : Nat} (hwhole : whole < digitsBound)
    (h : ofSize? whole = some x) : scaled? (whole * 10) (-1) = some x := by
  unfold digitsBound at hwhole
  obtain ⟨y, hy, hysize⟩ : ∃ y, ofSize? ((whole * 10 : ℕ) : ℚ) = some y ∧
      y.size = ((whole * 10 : ℕ) : ℚ) := by
    have hmant : whole * 5 < 2 ^ 53 := by omega
    have hshift : Binary64.stepBits + 1 < 2045 := by decide
    refine Binary64.exists_ofSize?_exact hmant hshift ?_
    rw [pow_succ]
    push_cast
    ring
  have hten : ((whole * 10 : ℕ) : ℚ) / 10 ^ 1 = whole := by
    push_cast
    field_simp
  have hscaled := scaled?_neg hy hysize one_pos (by decide)
  rwa [hten, h] at hscaled

/-- What spells the shortest digits of a value for a decimal of few digits is scaled to the
    value. -/
theorem scaled?_of_spells {w : Written} {negative : Bool} (hn : n < digitsBound)
    (hs : s ≤ exactPlaces) (h : ofSize? (n / 10 ^ s) = some x)
    (hw : w.Spells negative (x.shortest .toEven).digits (x.shortest .toEven).exponent) :
    w.digits < wholeBound ∧ scaled? w.digits w.power = some x := by
  obtain ⟨k, z, hshortest, rfl⟩ := Binary64.shortest_of_ofSize? .toEven hn hs h
  have hplain : k = 0 → (z : Int) - s = 0 := by
    have hplain : (x.shortest .toEven).digits = 0 → (x.shortest .toEven).exponent = 0 :=
      Binary64.exponent_of_digits_eq_zero
    rwa [hshortest] at hplain
  rw [hshortest] at hw
  dsimp only at hw
  have hbound := hn
  unfold digitsBound at hbound
  rcases Nat.lt_or_ge z s with hlt | hge
  · obtain ⟨places, rfl⟩ := Nat.exists_eq_add_of_le hlt.le
    obtain ⟨hdigits, hpower⟩ := hw.of_places (by omega)
    have hk : k ≤ k * 10 ^ z := Nat.le_mul_of_pos_right k (by positivity)
    have hplaces : w.power = -(places : Int) := by omega
    rw [hdigits, hplaces]
    exact ⟨by unfold wholeBound; omega, scaled?_of_places hn (by omega) hs h⟩
  · obtain ⟨count, rfl⟩ := Nat.exists_eq_add_of_le hge
    have hlength : (natural k).length + (((s + count : Nat) : Int) - s) ≤ 16 := by
      rcases Nat.eq_zero_or_pos k with rfl | hpos
      · rw [hplain rfl]
        decide
      · have hle := length_natural_le hpos hn
        omega
    obtain ⟨hdigits, hpower⟩ := hw.of_whole (by omega) hlength
    have hcount : (((s + count : Nat) : Int) - s).toNat = count := by omega
    have hle : k * 10 ^ count ≤ k * 10 ^ (s + count) :=
      Nat.mul_le_mul_left k (Nat.pow_le_pow_right (by norm_num) (by omega))
    have hsize : ((k * 10 ^ (s + count) : ℕ) : ℚ) / 10 ^ s = (k * 10 ^ count : ℕ) := by
      rw [pow_add]
      push_cast
      field_simp
    rw [hsize] at h
    rw [hdigits, hpower, hcount]
    exact ⟨by unfold wholeBound; omega, scaled?_of_whole (lt_of_le_of_lt hle hn) h⟩

/-- **The value for a decimal of few digits is read back from its text.** -/
theorem reread?_real (hn : n < digitsBound) (hs : s ≤ exactPlaces)
    (h : ofSize? (n / 10 ^ s) = some x) (negative : Bool) :
    (real (x.withSign negative)).reread? = some (.number (.real (x.withSign negative))) := by
  obtain ⟨w, hwritten, hw⟩ := exists_written (x.withSign negative)
  rw [Binary64.shortest_withSign] at hw
  obtain ⟨hfits, hscaled⟩ := scaled?_of_spells hn hs h hw
  have htoken := bareToken?_of_written? hwritten
  rw [ofWritten?_of_isReal hw.isReal hfits, hscaled, hw.negative_eq] at htoken
  rw [reread?, chars, htoken]
  rfl

end Reread

end PointOfSale.Figure

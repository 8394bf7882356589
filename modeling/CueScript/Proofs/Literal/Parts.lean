import CueScript.Proofs.Command.Tagged

set_option autoImplicit false

/-! # The parts of literals

How the three parts that literals are made of are spelled: quoted text, colors and dimensions. The
short spelling of a color is the long one with every pair of equal digits written once. For each
part there is one lemma that says exactly which texts are read, and as what. -/

namespace CueScript

/-! ## Quoted text -/

/-- Text in quotes begins with one and ends with another one. -/
theorem unquote?_eq_some_iff {cs inner : List Char} :
    unquote? cs = some inner ↔ cs = '"' :: (inner ++ ['"']) := by
  constructor
  · intro h
    unfold unquote? at h
    split at h
    · next rest => rw [Text.dropSuffix?_eq_some_iff.1 h]
    · cases h
  · rintro rfl
    exact Text.dropSuffix?_eq_some_iff.2 rfl

/-! ## Colors -/

namespace Color

/-- The digits of a color: two of base sixteen for each channel, or one for each channel that stands
    for two equal ones. -/
inductive Spelled : List Char → Color → Prop
  | long {r r' g g' b b' : Char} {c : Color}
      (red : Text.hexValue? r = some (c.red.toNat / 16))
      (red' : Text.hexValue? r' = some (c.red.toNat % 16))
      (green : Text.hexValue? g = some (c.green.toNat / 16))
      (green' : Text.hexValue? g' = some (c.green.toNat % 16))
      (blue : Text.hexValue? b = some (c.blue.toNat / 16))
      (blue' : Text.hexValue? b' = some (c.blue.toNat % 16)) : Spelled [r, r', g, g', b, b'] c
  | short {r g b : Char} {c : Color} (doubled : Spelled [r, r, g, g, b, b] c) : Spelled [r, g, b] c

/-- Two digits make a channel of eight bits, from which they are told again. -/
theorem toNat_pair {m n : Nat} (hm : m < 16) (hn : n < 16) :
    (UInt8.ofNat (m * 16 + n)).toNat / 16 = m ∧ (UInt8.ofNat (m * 16 + n)).toNat % 16 = n := by
  rw [UInt8.toNat_ofNat_of_lt' (by rw [UInt8.size]; omega)]
  omega

theorem ofNat_pair (channel : UInt8) :
    UInt8.ofNat (channel.toNat / 16 * 16 + channel.toNat % 16) = channel := by
  rw [Nat.div_add_mod', UInt8.ofNat_toNat]

/-- Both digits of a short channel are the same. -/
theorem ofNat_short {channel : UInt8} (h : channel.toNat / 16 = channel.toNat % 16) :
    UInt8.ofNat (channel.toNat / 16 * 17) = channel := by
  have hpair : channel.toNat / 16 * 17 = channel.toNat / 16 * 16 + channel.toNat % 16 := by omega
  rw [hpair, ofNat_pair]

theorem mapM_hexValue?_eq_some_iff {digits : List Char} {values : List Nat} :
    digits.mapM Text.hexValue? = some values
      ↔ List.Forall₂ (fun d v => Text.hexValue? d = some v) digits values := by
  induction digits generalizing values with
  | nil => cases values <;> simp
  | cons d digits ih =>
    cases values with
    | nil => simp [List.mapM_cons, Option.bind_eq_some_iff]
    | cons v values => simp [List.mapM_cons, ← ih, Option.bind_eq_some_iff]

theorem spelled_of_ofDigits? {digits : List Char} {values : List Nat} {c : Color}
    (hvalues : List.Forall₂ (fun d v => Text.hexValue? d = some v) digits values)
    (hc : ofDigits? values = some c) : Spelled digits c := by
  have hlt := @Text.lt_of_hexValue?
  unfold ofDigits? at hc
  split at hc
  · obtain _ | ⟨hr, _ | ⟨hg, _ | ⟨hb, ⟨⟩⟩⟩⟩ := hvalues
    obtain rfl := Option.some.inj hc
    have hdouble : ∀ n, n * 17 = n * 16 + n := fun n => by omega
    simp only [hdouble]
    refine .short (.long ?_ ?_ ?_ ?_ ?_ ?_) <;> simp only [toNat_pair, hlt hr, hlt hg, hlt hb, *]
  · obtain _ | ⟨hr, _ | ⟨hr', _ | ⟨hg, _ | ⟨hg', _ | ⟨hb, _ | ⟨hb', ⟨⟩⟩⟩⟩⟩⟩⟩ := hvalues
    obtain rfl := Option.some.inj hc
    refine .long ?_ ?_ ?_ ?_ ?_ ?_ <;>
      simp only [toNat_pair, hlt hr, hlt hr', hlt hg, hlt hg', hlt hb, hlt hb', *]
  · cases hc

/-- Exactly the digits of a color are read as the color, after a number sign. -/
theorem read?_eq_some_iff {cs : List Char} {c : Color} :
    read? cs = some c ↔ ∃ digits, cs = '#' :: digits ∧ Spelled digits c := by
  constructor
  · intro h
    unfold read? at h
    split at h
    · next digits =>
      obtain ⟨values, hvalues, hc⟩ := Option.bind_eq_some_iff.1 h
      exact ⟨digits, rfl, spelled_of_ofDigits? (mapM_hexValue?_eq_some_iff.1 hvalues) hc⟩
    · cases h
  · rintro ⟨digits, rfl, h⟩
    cases h with
    | long red red' green green' blue blue' =>
      have hvalues := mapM_hexValue?_eq_some_iff.2
        (.cons red (.cons red' (.cons green (.cons green' (.cons blue (.cons blue' .nil))))))
      simp only [read?, hvalues, Option.bind_some, ofDigits?, ofNat_pair]
    | short doubled =>
      obtain ⟨red, red', green, green', blue, blue'⟩ := doubled
      have hvalues := mapM_hexValue?_eq_some_iff.2 (.cons red (.cons green (.cons blue .nil)))
      have hred := ofNat_short (Option.some.inj (red.symm.trans red'))
      have hgreen := ofNat_short (Option.some.inj (green.symm.trans green'))
      have hblue := ofNat_short (Option.some.inj (blue.symm.trans blue'))
      simp only [read?, hvalues, Option.bind_some, ofDigits?, hred, hgreen, hblue]

end Color

/-! ## Dimensions -/

namespace Dimension

/-- A dimension is spelled as a numeral that begins with a digit, and a unit right after it. -/
inductive Spelled : List Char → Dimension → Prop
  | mk {c : Char} {rest : List Char} {d : Dimension} (digit : c.isDigit = true)
      (amount : Number.Binary64.read? (c :: rest) = some d.amount) :
      Spelled (c :: (rest ++ d.unit.suffix.toList)) d

/-- The unit at the end of a text is found, whatever stands before it. -/
theorem findSome?_append_suffix (number : List Char) (unit : LengthUnit) :
    (LengthUnit.all.findSome? fun u =>
      (Text.dropSuffix? u.suffix.toList (number ++ unit.suffix.toList)).map fun rest => (rest, u))
      = some (number, unit) := by
  cases unit <;>
    simp [LengthUnit.all, LengthUnit.suffix, Text.dropSuffix?, Text.dropPrefix?]

/-- Of a text that ends with a unit, the rest has to be a numeral that begins with a digit. -/
theorem read?_append_suffix (number : List Char) (unit : LengthUnit) :
    read? (number ++ unit.suffix.toList)
      = if (number.head?.map Char.isDigit).getD false then
          (Number.Binary64.read? number).map fun amount => ⟨amount, unit⟩
        else none := by
  rw [read?, findSome?_append_suffix]
  rfl

/-- Exactly the spelling of a dimension is read as the dimension. -/
theorem read?_eq_some_iff {cs : List Char} {d : Dimension} : read? cs = some d ↔ Spelled cs d := by
  constructor
  · intro h
    obtain ⟨⟨number, unit⟩, hfind, -⟩ := Option.bind_eq_some_iff.1 h
    obtain ⟨u, -, hu⟩ := List.exists_of_findSome?_eq_some hfind
    obtain ⟨number', hdrop, heq⟩ := Option.map_eq_some_iff.1 hu
    rw [Text.dropSuffix?_eq_some_iff] at hdrop
    subst hdrop
    rw [read?_append_suffix] at h
    split at h
    · next hdigit =>
      obtain ⟨amount, hamount, rfl⟩ := Option.map_eq_some_iff.1 h
      cases number' with
      | nil => cases hdigit
      | cons c rest => exact .mk (d := ⟨amount, u⟩) hdigit hamount
    · cases h
  · rintro ⟨hdigit, hamount⟩
    rw [← List.cons_append, read?_append_suffix, hamount]
    simp [hdigit]

end Dimension

end CueScript

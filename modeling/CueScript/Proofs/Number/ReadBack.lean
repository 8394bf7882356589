import CueScript.Number.Shortest
import Mathlib.Data.List.TakeWhile
import Mathlib.Tactic.Ring

set_option autoImplicit false

/-! # Numbers read back from their text

The text of a number is digits, perhaps with a point and more digits, after a sign if the number is
negative. Read as a numeral it is the same number again (`Binary64.read?_text`).

Two facts carry this. Rounding looks at a quotient only through its value, so decimals with the same
value are nearest to the same number, however their digits are laid out. And the decimal that stands
for a number in its text reads back, because the search tests that; where the search finds nothing,
the exact expansion reads back, as a number of the format is nearest to itself. -/

namespace CueScript.Number

/-! ## Rounding depends on the value of the quotient -/

theorem roundQuotient_mul_left {k : Nat} (hk : 0 < k) (num den : Nat) :
    roundQuotient (k * num) (k * den) = roundQuotient num den := by
  have htwice : 2 * (k * num % (k * den)) = k * (2 * (num % den)) := by
    rw [Nat.mul_mod_mul_left]
    ring
  have heq : (k * (2 * (num % den)) == k * den) = (2 * (num % den) == den) := by
    rw [Bool.eq_iff_iff, beq_iff_eq, beq_iff_eq, Nat.mul_right_inj hk.ne']
  simp only [roundQuotient, htwice, Nat.mul_div_mul_left _ _ hk, Nat.mul_lt_mul_left hk, heq]

theorem roundSteps_mul_left {k : Nat} (hk : 0 < k) (num den : Nat) :
    roundSteps (k * num) (k * den) = roundSteps num den := by
  simp only [roundSteps, Nat.mul_div_mul_left _ _ hk, Nat.mul_assoc k den,
    roundQuotient_mul_left hk]

/-- A count of the format is the nearest one to itself. -/
theorem roundSteps_of_representable {n : Nat} (hn : Representable n) {den : Nat} (hden : 0 < den) :
    roundSteps (n * den) den = n := by
  have hunit : 0 < Nat.pow 2 (lowBits n) := Nat.pow_pos Nat.two_pos
  obtain ⟨q, hq⟩ := Nat.dvd_of_mod_eq_zero hn.1
  rw [roundSteps, Nat.mul_div_cancel _ hden]
  generalize Nat.pow 2 (lowBits n) = unit at hunit hq
  have hround : roundQuotient (n * den) (den * unit) = q := by
    have hnum : n * den = den * unit * q := by rw [hq]; ring
    have hpos : 0 < den * unit := Nat.mul_pos hden hunit
    rw [hnum, roundQuotient, Nat.mul_div_cancel_left _ hpos, Nat.mul_mod_right]
    simp [hpos.ne]
  rw [hround, hq, Nat.mul_comm]

namespace Binary64

theorem ofQuotient?_mul_left (negative : Bool) {k : Nat} (hk : 0 < k) (num den : Nat) :
    ofQuotient? negative (k * num) (k * den) = ofQuotient? negative num den := by
  simp only [ofQuotient?, Nat.mul_assoc k num, roundSteps_mul_left hk]

/-- Equal quotients are nearest to the same number. -/
theorem ofQuotient?_congr (negative : Bool) {num den num' den' : Nat} (hden : 0 < den)
    (hden' : 0 < den') (h : num * den' = num' * den) :
    ofQuotient? negative num den = ofQuotient? negative num' den' := by
  rw [← ofQuotient?_mul_left negative hden' num den, ← ofQuotient?_mul_left negative hden num' den',
    Nat.mul_comm den' num, h, Nat.mul_comm num' den, Nat.mul_comm den' den]

end Binary64

/-! ## Decimals with the same value -/

theorem digitCount_mul_ten {n : Nat} (hn : 0 < n) : digitCount (n * 10) = digitCount n + 1 := by
  have hlast : n * 10 / 10 = n := Nat.mul_div_cancel n (by omega)
  rw [digitCount, Nat.toDigits_of_base_le (by omega) (by omega), hlast, List.length_append]
  rfl

theorem digitCount_mul_pow {n : Nat} (hn : 0 < n) (k : Nat) :
    digitCount (n * 10 ^ k) = digitCount n + k := by
  induction k with
  | zero => simp
  | succ k ih =>
    have hpos : 0 < n * 10 ^ k := Nat.mul_pos hn (Nat.pow_pos (by omega))
    rw [Nat.pow_succ, ← Nat.mul_assoc, digitCount_mul_ten hpos, ih, Nat.add_assoc]

namespace Decimal

/-- A decimal between the two bounds is rounded as a quotient of whole numbers. -/
theorem toBinary64?_eq {d : Decimal} (hd : d.digits ≠ 0) (negative : Bool) :
    d.toBinary64? negative
      = if 310 < d.exponent + digitCount d.digits then none
        else if d.exponent + digitCount d.digits < -330 then some (.zero negative)
        else Binary64.ofQuotient? negative (d.digits * 10 ^ d.exponent.toNat)
          (10 ^ (-d.exponent).toNat) := by
  rw [toBinary64?, if_neg hd]
  by_cases hsign : 0 ≤ d.exponent
  · have hnone : (-d.exponent).toNat = 0 := by omega
    simp [hsign, hnone]
  · have hnone : d.exponent.toNat = 0 := by omega
    simp [hsign, hnone]

/-- Zeros at the end of the digits may be counted in the exponent. -/
theorem toBinary64?_mul_pow (n k : Nat) (e : Int) (negative : Bool) :
    (⟨n * 10 ^ k, e⟩ : Decimal).toBinary64? negative
      = (⟨n, e + k⟩ : Decimal).toBinary64? negative := by
  have hten : 0 < 10 := by omega
  obtain rfl | hn := Nat.eq_zero_or_pos n
  · simp [toBinary64?]
  · have hdigits : n * 10 ^ k ≠ 0 := (Nat.mul_pos hn (Nat.pow_pos hten)).ne'
    have htop : e + (digitCount n + k : Nat) = e + k + digitCount n := by omega
    have hplaces : k + e.toNat + (-(e + k)).toNat = (e + k).toNat + (-e).toNat := by omega
    have hvalue : n * 10 ^ k * 10 ^ e.toNat * 10 ^ (-(e + k)).toNat
        = n * 10 ^ (e + k).toNat * 10 ^ (-e).toNat := by
      simp only [Nat.mul_assoc, ← Nat.pow_add, hplaces]
    rw [toBinary64?_eq hdigits, toBinary64?_eq (d := ⟨n, e + k⟩) hn.ne']
    simp only [digitCount_mul_pow hn, htop]
    rw [Binary64.ofQuotient?_congr negative (Nat.pow_pos hten) (Nat.pow_pos hten) hvalue]

theorem negative_of_toBinary64? {d : Decimal} {negative : Bool} {x : Binary64}
    (h : d.toBinary64? negative = some x) : x.negative = negative := by
  have hquotient : ∀ num den, Binary64.ofQuotient? negative num den = some x →
      x.negative = negative := by
    intro num den hx
    rw [Binary64.ofQuotient?] at hx
    split at hx
    · rw [← Option.some.inj hx]
    · cases hx
  by_cases hd : d.digits = 0
  · rw [toBinary64?, if_pos hd] at h
    rw [← Option.some.inj h]
    rfl
  · rw [toBinary64?_eq hd] at h
    split at h
    · cases h
    · split at h
      · rw [← Option.some.inj h]
        rfl
      · exact hquotient _ _ h

variable {whole places ds : List Char}

/-! ## Reading what was laid out -/

/-- Digits alone are read as a whole number. -/
theorem read?_of_isDigit (hne : ds ≠ []) (hds : ∀ c ∈ ds, c.isDigit = true) :
    read? ds = some ⟨Nat.ofDigitChars 10 ds 0, 0⟩ := by
  have htake : ds.takeWhile Char.isDigit = ds := List.takeWhile_eq_self_iff.2 hds
  have hdrop : ds.dropWhile Char.isDigit = [] := List.dropWhile_eq_nil_iff.2 hds
  simp [read?, htake, hdrop, hne, readExponent?]

/-- Digits with a point between them are read as the number that they make without the point, of
    which the last one counts. -/
theorem read?_append_point (hne : whole ≠ []) (hwhole : ∀ c ∈ whole, c.isDigit = true)
    (hplaces : ∀ c ∈ places, c.isDigit = true) :
    read? (whole ++ '.' :: places)
      = some ⟨Nat.ofDigitChars 10 (whole ++ places) 0, -(places.length : Int)⟩ := by
  have hpoint : ¬ Char.isDigit '.' = true := by decide
  have htake : (whole ++ '.' :: places).takeWhile Char.isDigit = whole := by
    rw [List.takeWhile_append_of_pos hwhole, List.takeWhile_cons_of_neg hpoint, List.append_nil]
  have hdrop : (whole ++ '.' :: places).dropWhile Char.isDigit = '.' :: places := by
    rw [List.dropWhile_append_of_pos hwhole, List.dropWhile_cons_of_neg hpoint]
  have htake' : places.takeWhile Char.isDigit = places := List.takeWhile_eq_self_iff.2 hplaces
  have hdrop' : places.dropWhile Char.isDigit = [] := List.dropWhile_eq_nil_iff.2 hplaces
  simp [read?, htake, hdrop, htake', hdrop', hne, readExponent?]

/-- Digits in positional notation are read back; zeros that were added count as digits. -/
theorem read?_layout (hne : ds ≠ []) (hds : ∀ c ∈ ds, c.isDigit = true) (e : Int) :
    read? (layout ds e) = some ⟨Nat.ofDigitChars 10 ds 0 * 10 ^ e.toNat, min e 0⟩ := by
  have hzeros : ∀ k, ∀ c ∈ List.replicate k '0', c.isDigit = true := by
    intro k c hc
    rw [List.eq_of_mem_replicate hc]
    rfl
  rw [layout, if_neg (by simpa using hne)]
  split
  · next hsign =>
    have hdigits : ∀ c ∈ ds ++ List.replicate e.toNat '0', c.isDigit = true :=
      List.forall_mem_append.2 ⟨hds, hzeros _⟩
    rw [read?_of_isDigit (List.append_ne_nil_of_left_ne_nil hne _) hdigits,
      Nat.ofDigitChars_append, Nat.ofDigitChars_replicate_zero, Nat.mul_comm, min_eq_right hsign]
  · next hsign =>
    have hnone : e.toNat = 0 := by omega
    rw [hnone, Nat.pow_zero, Nat.mul_one, min_eq_left (by omega)]
    simp only
    split
    · next hplaces =>
      rw [read?_append_point]
      · have hlength : -((ds.drop (ds.length - (-e).toNat)).length : Int) = e := by
          rw [List.length_drop]
          omega
        rw [List.take_append_drop, hlength]
      · rw [ne_eq, List.take_eq_nil_iff, not_or]
        exact ⟨by omega, hne⟩
      · exact fun c hc => hds c (List.mem_of_mem_take hc)
      · exact fun c hc => hds c (List.mem_of_mem_drop hc)
    · next hplaces =>
      have hpoint := @read?_append_point ['0'] (List.replicate ((-e).toNat - ds.length) '0' ++ ds)
        (by simp) (List.forall_mem_singleton.2 rfl) (List.forall_mem_append.2 ⟨hzeros _, hds⟩)
      have hlength : -((List.replicate ((-e).toNat - ds.length) '0' ++ ds).length : Int) = e := by
        rw [List.length_append, List.length_replicate]
        omega
      rw [List.singleton_append, hlength] at hpoint
      rw [hpoint]
      simp [Nat.ofDigitChars_append, Nat.ofDigitChars_replicate_zero, Nat.ofDigitChars_cons]

/-- The significant digits of a decimal, and how many zeros come after them. -/
theorem exists_significant (d : Decimal) :
    ∃ k : Nat, d.digits = Nat.ofDigitChars 10 d.significant.1 0 * 10 ^ k
      ∧ d.significant.2 = d.exponent + k
      ∧ ∀ c ∈ d.significant.1, c.isDigit = true := by
  obtain ⟨zeros, hall, hzeros⟩ :=
    Text.exists_dropRight_append (fun c => c == '0') (Nat.toDigits 10 d.digits)
  have hreplicate : zeros = List.replicate zeros.length '0' :=
    List.eq_replicate_iff.2 ⟨rfl, fun c hc => by simpa using hzeros c hc⟩
  have hkept :
      d.significant.1 = Text.dropRight (fun c => c == '0') (Nat.toDigits 10 d.digits) := rfl
  refine ⟨zeros.length, ?_, ?_, ?_⟩
  · calc d.digits = Nat.ofDigitChars 10 (Nat.toDigits 10 d.digits) 0 :=
          Nat.ofDigitChars_ten_toDigits.symm
      _ = Nat.ofDigitChars 10 (d.significant.1 ++ List.replicate zeros.length '0') 0 := by
          rw [hkept, ← hreplicate, ← hall]
      _ = Nat.ofDigitChars 10 d.significant.1 0 * 10 ^ zeros.length := by
          rw [Nat.ofDigitChars_append, Nat.ofDigitChars_replicate_zero, Nat.mul_comm]
  · have hlength := congrArg List.length hall
    rw [List.length_append, ← hkept] at hlength
    show d.exponent + ((Nat.toDigits 10 d.digits).length - d.significant.1.length : Nat) = _
    omega
  · intro c hc
    rw [hkept] at hc
    exact Nat.isDigit_of_mem_toDigits (by omega) (by omega)
      ((Text.dropRight_initial _ _).subset hc)

/-- **A decimal in positional notation is read as a decimal of the same value**, so it is nearest to
    the same number. -/
theorem toBinary64?_read?_positional (d : Decimal) (negative : Bool) :
    (read? d.positional).bind (·.toBinary64? negative) = d.toBinary64? negative := by
  obtain ⟨k, hdigits, hexponent, hds⟩ := exists_significant d
  obtain ⟨digits, exponent⟩ := d
  by_cases hne : (significant ⟨digits, exponent⟩).1 = []
  · -- Nothing is significant in zero, which is laid out as one digit.
    have hzero : digits = 0 := by simpa [hne] using hdigits
    have hlayout : layout [] (significant ⟨digits, exponent⟩).2 = ['0'] := rfl
    rw [positional, hne, hlayout, read?_of_isDigit (by simp) (List.forall_mem_singleton.2 rfl)]
    simp [toBinary64?, hzero, Nat.ofDigitChars_cons]
  · have hsame : min (exponent + k) 0 + ((exponent + k).toNat : Int) = exponent + k := by omega
    rw [positional, read?_layout hne hds, hexponent, Option.bind_some, toBinary64?_mul_pow, hsame,
      ← toBinary64?_mul_pow, ← hdigits]

/-- Positional notation begins with a digit. -/
theorem exists_positional_eq_cons (d : Decimal) :
    ∃ c rest, d.positional = c :: rest ∧ c.isDigit = true := by
  obtain ⟨k, -, -, hds⟩ := exists_significant d
  rw [positional, layout]
  cases hsignificant : d.significant.1 with
  | nil => exact ⟨'0', [], rfl, rfl⟩
  | cons c rest =>
    have hc : c.isDigit = true := hds c (by rw [hsignificant]; exact List.mem_cons_self)
    simp only [List.isEmpty_cons, Bool.false_eq_true, if_false]
    split
    · exact ⟨c, _, rfl, hc⟩
    · split
      · next hplaces =>
        obtain ⟨n, hn⟩ := Nat.exists_eq_succ_of_ne_zero
          (Nat.sub_ne_zero_of_lt hplaces)
        rw [hn, List.take_succ_cons]
        exact ⟨c, _, rfl, hc⟩
      · exact ⟨'0', _, rfl, rfl⟩

end Decimal

/-! ## The decimal of a number reads back -/

/-- A decimal whose value is a number of the format is nearest to that number. -/
theorem Decimal.toBinary64?_of_exact {d : Decimal} {x : Binary64} (hd : d.digits ≠ 0)
    (hhigh : d.exponent + digitCount d.digits ≤ 310)
    (hlow : -330 ≤ d.exponent + digitCount d.digits)
    (hvalue : d.digits * 10 ^ d.exponent.toNat * stepsPerOne
      = x.steps * 10 ^ (-d.exponent).toNat) :
    d.toBinary64? x.negative = some x := by
  have hden : 0 < 10 ^ (-d.exponent).toNat := Nat.pow_pos (by omega)
  have hsteps := roundSteps_of_representable x.representable hden
  rw [toBinary64?_eq hd, if_neg (by omega), if_neg (by omega), Binary64.ofQuotient?, hvalue]
  simp only [hsteps, x.representable, dif_pos]

theorem pow_five_mul_stepsPerOne : Nat.pow 5 1074 * stepsPerOne = 10 ^ 1074 := by
  decide +kernel

theorem stepLimit_mul_pow_five_le : stepLimit * Nat.pow 5 1074 ≤ 10 ^ 1384 := by
  decide +kernel

theorem pow_ten_le_pow_five : 10 ^ 744 ≤ Nat.pow 5 1074 := by
  decide +kernel

namespace Binary64

/-- The exact expansion reads back. -/
theorem readBack_expansion {x : Binary64} (hx : x.steps ≠ 0) : x.ReadBack x.expansion := by
  have hfive : 0 < Nat.pow 5 1074 := by
    generalize 1074 = k
    exact Nat.pow_pos (by omega)
  have hsteps : x.steps < stepLimit := x.representable.2
  have hexact : x.steps * Nat.pow 5 1074 * stepsPerOne = x.steps * 10 ^ 1074 := by
    rw [Nat.mul_assoc, pow_five_mul_stepsPerOne]
  have hhigh : digitCount (x.steps * Nat.pow 5 1074) ≤ 1384 := by
    rw [digitCount, Nat.length_toDigits_le_iff (by omega) (by omega)]
    calc x.steps * Nat.pow 5 1074 < stepLimit * Nat.pow 5 1074 :=
          Nat.mul_lt_mul_of_pos_right hsteps hfive
      _ ≤ 10 ^ 1384 := stepLimit_mul_pow_five_le
  have hlow : 744 < digitCount (x.steps * Nat.pow 5 1074) := by
    rw [← Nat.not_le, digitCount, Nat.length_toDigits_le_iff (by omega) (by omega), Nat.not_lt]
    calc 10 ^ 744 ≤ Nat.pow 5 1074 := pow_ten_le_pow_five
      _ ≤ x.steps * Nat.pow 5 1074 := Nat.le_mul_of_pos_left _ (Nat.pos_of_ne_zero hx)
  generalize hn : x.steps * Nat.pow 5 1074 = n at hexact hhigh hlow
  have hexpansion : x.expansion = ⟨n, -1074⟩ := by rw [expansion, hn]
  have hpos : n ≠ 0 := by
    rw [← hn]
    exact (Nat.mul_pos (Nat.pos_of_ne_zero hx) hfive).ne'
  rw [ReadBack, hexpansion]
  refine Decimal.toBinary64?_of_exact hpos (by simp only; omega) (by simp only; omega) ?_
  have hnone : (-1074 : Int).toNat = 0 := rfl
  have hplaces : (-(-1074 : Int)).toNat = 1074 := rfl
  simp only [hnone, hplaces, Nat.pow_zero, Nat.mul_one]
  exact hexact

/-- A decimal that the search takes reads back. -/
theorem readBack_of_neighbour? {x : Binary64} {tie : Tie} {e : Int} {d : Decimal}
    (h : x.neighbour? tie e = some d) : x.ReadBack d := by
  unfold neighbour? at h
  extract_lets num den below above at h
  by_cases hbelow : x.ReadBack below <;> by_cases habove : x.ReadBack above
  · rw [if_pos hbelow, if_pos habove] at h
    split at h
    · exact Option.some.inj h ▸ hbelow
    · exact Option.some.inj h ▸ habove
  · rw [if_pos hbelow, if_neg habove] at h
    exact Option.some.inj h ▸ hbelow
  · rw [if_neg hbelow, if_pos habove] at h
    exact Option.some.inj h ▸ habove
  · rw [if_neg hbelow, if_neg habove] at h
    cases h

/-- The decimal that stands for a number reads back, whichever way a tie goes. -/
theorem readBack_shortest (x : Binary64) (tie : Tie) : x.ReadBack (x.shortest tie) := by
  rw [shortest]
  split
  · next hzero =>
    obtain ⟨negative, steps, hsteps⟩ := x
    obtain rfl : steps = 0 := hzero
    rfl
  · next hx =>
    cases hfind : (List.range 17).findSome? fun i : Nat =>
        x.neighbour? tie (x.leading - 1 - (i : Int)) with
    | none => exact readBack_expansion hx
    | some d =>
      obtain ⟨i, -, hi⟩ := List.exists_of_findSome?_eq_some hfind
      exact readBack_of_neighbour? hi

/-- A numeral that begins with a digit has no sign. -/
theorem read?_of_isDigit_head {c : Char} (hc : c.isDigit = true) (cs : List Char) :
    read? (c :: cs) = (Decimal.read? (c :: cs)).bind (·.toBinary64? false) := by
  unfold read?
  split
  · next heq => rw [(List.cons.inj heq).1] at hc; cases hc
  · next heq => rw [(List.cons.inj heq).1] at hc; cases hc
  · rfl

/-- **The text of a number is read as the number.** -/
theorem read?_text (x : Binary64) : read? x.text.toList = some x := by
  have hback : (x.shortest .up).toBinary64? x.negative = some x := x.readBack_shortest .up
  have hread := Decimal.toBinary64?_read?_positional (x.shortest .up) x.negative
  obtain ⟨c, rest, hcons, hc⟩ := (x.shortest .up).exists_positional_eq_cons
  rw [text, String.toList_ofList]
  rw [hback, hcons] at hread
  cases hsign : x.negative with
  | true =>
    rw [hsign] at hread
    rw [if_pos rfl, hcons]
    exact hread
  | false =>
    rw [hsign] at hread
    rw [if_neg Bool.false_ne_true, List.nil_append, hcons, read?_of_isDigit_head hc, hread]

/-- The text of a number that is not negative begins with a digit. -/
theorem exists_text_eq_cons {x : Binary64} (hx : x.negative = false) :
    ∃ c rest, x.text.toList = c :: rest ∧ c.isDigit = true := by
  rw [text, String.toList_ofList, hx]
  exact (x.shortest .up).exists_positional_eq_cons

/-- A numeral that begins with a digit is not negative. -/
theorem negative_of_read? {c : Char} {cs : List Char} {x : Binary64} (hc : c.isDigit = true)
    (h : read? (c :: cs) = some x) : x.negative = false := by
  rw [read?_of_isDigit_head hc] at h
  obtain ⟨d, -, hd⟩ := Option.bind_eq_some_iff.1 h
  exact Decimal.negative_of_toBinary64? hd

end Binary64

end CueScript.Number

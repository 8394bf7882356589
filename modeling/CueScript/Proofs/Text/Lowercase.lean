import CueScript.Text.Blank
import CueScript.Text.Lowercase
import Mathlib.Data.List.Induction

set_option autoImplicit false

/-! # Lower case is final

A text in lower case stays as it is when it is put in lower case again (`lowercase_lowercase`): no
small letter is a capital of another run, and without a capital sigma no place in a text matters.
Folding does not bring in blanks or ASCII marks either (`mem_smallForm`).

Both are facts about the table of capital letters. They are checked run by run, and not letter by
letter: the small letters of a run fill an interval, or every second place of one. -/

namespace CueScript.Text

/-! ## The small letters of a run -/

/-- The code point of the first small letter of a run. -/
def CapitalRun.lowest (run : CapitalRun) : Nat := (run.first + run.shift).toNat

/-- The code point of the last small letter of a run. -/
def CapitalRun.highest (run : CapitalRun) : Nat := (run.last + run.shift).toNat

/-- Do the small letters of a run lie outside a range of code points? -/
def CapitalRun.avoids (run : CapitalRun) (range : Nat × Nat) : Bool :=
  run.highest.blt range.1 || range.2.blt run.lowest

/-- Are the small letters of a run no capitals of the other? Where both lie in one interval, capitals
    stand at every second place, and the small letters at the places between. -/
def CapitalRun.misses (run other : CapitalRun) : Bool :=
  run.avoids (other.first, other.last)
    || (other.stride.beq 2 && (run.stride.beq 2 || run.first.beq run.last)
      && ((run.lowest + other.first) % 2).beq 1)

/-- Where no small letter lies: ASCII before `a`, blanks beyond ASCII, and the two capitals that
    have a rule of their own. -/
def unmadeRanges : List (Nat × Nat) :=
  [(0, 0x60), (0x85, 0x85), (0xa0, 0xa0), (0x130, 0x130), (0x3a3, 0x3a3), (0x1680, 0x1680),
    (0x2000, 0x200a), (0x2028, 0x2029), (0x202f, 0x202f), (0x205f, 0x205f), (0x3000, 0x3000)]

/-- What the table has to say of a run: its small letters are characters, they lie elsewhere than
    those ranges, and none of them is a capital. -/
def CapitalRun.isFinal (run : CapitalRun) : Bool :=
  (run.highest.blt 0xd800 || (Nat.blt 0xdfff run.lowest && run.highest.blt 0x110000))
    && unmadeRanges.all run.avoids && capitalRuns.all run.misses

/-- The table says so of every run. -/
theorem isFinal_of_mem : ∀ run ∈ capitalRuns, run.isFinal = true :=
  List.all_eq_true.1 (by decide +kernel)

/-- Is the character the small form of itself, wherever it stands? -/
def isSmall (c : Char) : Bool := c ≠ 'Σ' && c ≠ 'İ' && smallLetter c = c

/-! ## One character -/

/-- The small letter of a capital lies between the ends of its run, at a place that has letters. -/
theorem CapitalRun.bounds_of_covers {run : CapitalRun} (hpos : 0 < run.lowest) {n : Nat}
    (h : run.covers n = true) :
    run.lowest ≤ (n + run.shift).toNat ∧ (n + run.shift).toNat ≤ run.highest
      ∧ (run.stride = 2 → ((n + run.shift).toNat + run.lowest) % 2 = 0) := by
  simp only [covers, Bool.and_eq_true, decide_eq_true_eq, beq_iff_eq] at h
  obtain ⟨⟨hfirst, hlast⟩, hstride⟩ := h
  rw [lowest] at hpos ⊢
  rw [highest]
  refine ⟨by omega, by omega, fun htwo => ?_⟩
  rw [htwo] at hstride
  omega

theorem not_inRanges_of_avoids {run : CapitalRun} {n : Nat} {ranges : List (Nat × Nat)}
    (h : ranges.all run.avoids = true) (hlow : run.lowest ≤ n) (hhigh : n ≤ run.highest) :
    inRanges ranges n = false := by
  rw [inRanges, List.any_eq_false]
  intro range hrange
  have havoids := List.all_eq_true.1 h range hrange
  simp only [CapitalRun.avoids, Bool.or_eq_true, Nat.blt_eq] at havoids
  simp only [Bool.and_eq_true, decide_eq_true_eq]
  omega

theorem not_covers_of_misses {run other : CapitalRun} {n : Nat} (h : run.misses other = true)
    (hlow : run.lowest ≤ n) (hhigh : n ≤ run.highest)
    (hstride : run.stride = 2 → (n + run.lowest) % 2 = 0) : other.covers n = false := by
  rw [← Bool.not_eq_true]
  intro hcovers
  simp only [CapitalRun.covers, Bool.and_eq_true, decide_eq_true_eq, beq_iff_eq] at hcovers
  obtain ⟨⟨hfirst, hlast⟩, hother⟩ := hcovers
  simp only [CapitalRun.misses, CapitalRun.avoids, Bool.or_eq_true, Bool.and_eq_true, Nat.blt_eq,
    Nat.beq_eq] at h
  rcases h with h | ⟨⟨htwo, h⟩, hodd⟩
  · omega
  · rw [htwo] at hother
    rcases h with h | h
    · have := hstride h
      omega
    · have heq : run.lowest = run.highest := by rw [CapitalRun.lowest, CapitalRun.highest, h]
      omega

theorem toLower_of_lt {c : Char} (h : 0x60 < c.toNat) : c.toLower = c := by
  have hZ : ¬ c.val ≤ 'Z'.val := by
    rw [UInt32.le_iff_toNat_le, Nat.not_le]
    exact Nat.lt_trans (by decide) h
  exact dif_neg fun hc => hZ hc.2

/-- A character outside those ranges that is no capital is small. -/
theorem isSmall_of_not_covers {c : Char} (hrange : inRanges unmadeRanges c.toNat = false)
    (hcovers : ∀ run ∈ capitalRuns, run.covers c.toNat = false) : isSmall c = true := by
  have hout : ∀ range ∈ unmadeRanges, ¬ (range.1 ≤ c.toNat ∧ c.toNat ≤ range.2) := by
    simpa [inRanges] using hrange
  have hsigma : c ≠ 'Σ' := by
    rintro rfl
    exact hout (0x3a3, 0x3a3) (by decide) (by decide)
  have hdotted : c ≠ 'İ' := by
    rintro rfl
    exact hout (0x130, 0x130) (by decide) (by decide)
  have hsmall : smallLetter c = c := by
    unfold smallLetter
    split
    · refine toLower_of_lt (Nat.lt_of_not_le fun hle => ?_)
      exact hout (0, 0x60) (by decide) ⟨Nat.zero_le _, hle⟩
    · rw [List.find?_eq_none.2 fun run hrun => by simp [hcovers run hrun]]
  simp [isSmall, hsigma, hdotted, hsmall]

/-- The small letter of a capital is small, and outside those ranges. -/
theorem isSmall_of_covers {run : CapitalRun} (hrun : run ∈ capitalRuns) {n : Nat}
    (h : run.covers n = true) :
    inRanges unmadeRanges (Char.ofNat (n + run.shift).toNat).toNat = false
      ∧ isSmall (Char.ofNat (n + run.shift).toNat) = true := by
  have hfinal := isFinal_of_mem run hrun
  simp only [CapitalRun.isFinal, Bool.and_eq_true, Bool.or_eq_true, Nat.blt_eq] at hfinal
  obtain ⟨⟨hchar, hranges⟩, hmisses⟩ := hfinal
  have hpos : 0 < run.lowest := by
    have hascii := List.all_eq_true.1 hranges (0, 0x60) (by decide)
    simp only [CapitalRun.avoids, Bool.or_eq_true, Nat.blt_eq] at hascii
    omega
  obtain ⟨hlow, hhigh, hstride⟩ := CapitalRun.bounds_of_covers hpos h
  have hvalid : (n + run.shift).toNat.isValidChar := by
    rw [Nat.isValidChar]
    omega
  have htoNat : (Char.ofNat (n + run.shift).toNat).toNat = (n + run.shift).toNat := by
    rw [Char.ofNat, dif_pos hvalid]
    rfl
  have hout : inRanges unmadeRanges (Char.ofNat (n + run.shift).toNat).toNat = false := by
    rw [htoNat]
    exact not_inRanges_of_avoids hranges hlow hhigh
  refine ⟨hout, isSmall_of_not_covers hout fun other hother => ?_⟩
  rw [htoNat]
  exact not_covers_of_misses (List.all_eq_true.1 hmisses other hother) hlow hhigh hstride

/-- The small form of an ASCII character is a letter from `a` on if it is another character. -/
theorem small_of_lt : ∀ n < 0x80, isSmall (Char.ofNat n).toLower = true
    ∧ ((Char.ofNat n).toLower = Char.ofNat n
      ∨ inRanges unmadeRanges (Char.ofNat n).toLower.toNat = false) := by
  decide +kernel

/-- The small forms that have a rule of their own. -/
theorem small_of_mem {d : Char} (h : d ∈ ['ς', 'σ', 'i', '\u0307']) :
    isSmall d = true ∧ inRanges unmadeRanges d.toNat = false := by
  have hall : ['ς', 'σ', 'i', '\u0307'].all (fun d => !inRanges unmadeRanges d.toNat
      && capitalRuns.all fun run => !run.covers d.toNat) = true := by decide +kernel
  have hd := List.all_eq_true.1 hall d h
  rw [Bool.and_eq_true, Bool.not_eq_true', List.all_eq_true] at hd
  exact ⟨isSmall_of_not_covers hd.1 fun run hrun => by simpa using hd.2 run hrun, hd.1⟩

/-- The small form of a character is small, and outside those ranges if it is another character. -/
theorem isSmall_smallLetter {c : Char} (hsigma : c ≠ 'Σ') (hdotted : c ≠ 'İ') :
    isSmall (smallLetter c) = true
      ∧ (smallLetter c = c ∨ inRanges unmadeRanges (smallLetter c).toNat = false) := by
  by_cases hascii : c.toNat < 0x80
  · have hlower := small_of_lt c.toNat hascii
    rw [Char.ofNat_toNat] at hlower
    rwa [smallLetter, if_pos hascii]
  · cases hfind : capitalRuns.find? (·.covers c.toNat) with
    | none =>
      have hself : smallLetter c = c := by rw [smallLetter, if_neg hascii, hfind]
      rw [hself]
      exact ⟨by simp [isSmall, hsigma, hdotted, hself], .inl rfl⟩
    | some run =>
      have hcovers : run.covers c.toNat = true := by simpa using List.find?_some hfind
      obtain ⟨hout, hsmall⟩ := isSmall_of_covers (List.mem_of_find?_eq_some hfind) hcovers
      rw [smallLetter, if_neg hascii, hfind]
      exact ⟨hsmall, .inr hout⟩

/-- Folding leaves a character as it is, or puts small letters in its place that lie outside those
    ranges. -/
theorem mem_smallForm {before after : List Char} {c d : Char} (h : d ∈ smallForm before c after) :
    isSmall d = true ∧ (d = c ∨ inRanges unmadeRanges d.toNat = false) := by
  unfold smallForm at h
  split at h
  · have hd : d ∈ ['ς', 'σ', 'i', '\u0307'] := by split at h <;> simp_all
    exact (small_of_mem hd).imp_right .inr
  · next hsigma =>
    split at h
    · have hd : d ∈ ['ς', 'σ', 'i', '\u0307'] := by simp_all
      exact (small_of_mem hd).imp_right .inr
    · next hdotted =>
      rw [List.mem_singleton.1 h]
      exact isSmall_smallLetter hsigma hdotted

/-! ## Texts -/

theorem smallForm_of_isSmall {c : Char} (h : isSmall c = true) (before after : List Char) :
    smallForm before c after = [c] := by
  simp only [isSmall, Bool.and_eq_true, decide_eq_true_eq] at h
  rw [smallForm, if_neg h.1.1, if_neg h.1.2, h.2]

theorem smallForm_ne_nil (before after : List Char) (c : Char) : smallForm before c after ≠ [] := by
  unfold smallForm
  split
  · simp
  · split <;> simp

theorem lowerAfter_ne_nil {cs : List Char} (h : cs ≠ []) (before : List Char) :
    lowerAfter before cs ≠ [] := by
  cases cs with
  | nil => exact absurd rfl h
  | cons c cs =>
    rw [lowerAfter]
    exact List.append_ne_nil_of_left_ne_nil (smallForm_ne_nil before cs c) _

/-- What folding leaves of each character stands in its place. -/
theorem mem_lowerAfter {before cs : List Char} {d : Char} (h : d ∈ lowerAfter before cs) :
    ∃ before' c after, c ∈ cs ∧ d ∈ smallForm before' c after := by
  induction cs generalizing before with
  | nil => cases h
  | cons c cs ih =>
    rw [lowerAfter, List.mem_append] at h
    rcases h with h | h
    · exact ⟨before, c, cs, List.mem_cons_self, h⟩
    · obtain ⟨before', c', after, hc', hd⟩ := ih h
      exact ⟨before', c', after, List.mem_cons_of_mem _ hc', hd⟩

theorem lowerAfter_of_isSmall {cs : List Char} (h : ∀ c ∈ cs, isSmall c = true)
    (before : List Char) : lowerAfter before cs = cs := by
  induction cs generalizing before with
  | nil => rfl
  | cons c cs ih =>
    rw [List.forall_mem_cons] at h
    rw [lowerAfter, smallForm_of_isSmall h.1, ih h.2, List.singleton_append]

/-- The last characters come from the last character. -/
theorem lowerAfter_concat (before cs : List Char) (c : Char) :
    ∃ start, lowerAfter before (cs ++ [c]) = start ++ smallForm (cs.reverse ++ before) c [] := by
  induction cs generalizing before with
  | nil => exact ⟨[], by simp [lowerAfter]⟩
  | cons d cs ih =>
    obtain ⟨start, hstart⟩ := ih (d :: before)
    refine ⟨smallForm before d (cs ++ [c]) ++ start, ?_⟩
    rw [List.cons_append, lowerAfter, hstart]
    simp

/-- **Lower case is final.** A text in lower case stays as it is when it is put in lower case. -/
theorem lowercase_lowercase (s : String) : lowercase (lowercase s) = lowercase s := by
  have hsmall : ∀ d ∈ lowerAfter [] s.toList, isSmall d = true := by
    intro d hd
    obtain ⟨before, c, after, -, hform⟩ := mem_lowerAfter hd
    exact (mem_smallForm hform).1
  rw [lowercase, lowercase, String.toList_ofList, lowerAfter_of_isSmall hsmall]

/-! ## Marks

A class of characters that lies in those ranges, as blanks and quotes do, gains none by folding, and
what was free of it at an end stays so. -/

section Marks

variable {p : Char → Bool} (hp : ∀ c, p c = true → inRanges unmadeRanges c.toNat = true)

theorem inRanges_of_isBlank (c : Char) (h : isBlank c = true) :
    inRanges unmadeRanges c.toNat = true := by
  have hmem : ∀ range ∈ unmadeRanges, range.1 ≤ c.toNat → c.toNat ≤ range.2 →
      inRanges unmadeRanges c.toNat = true := fun range hrange hlow hhigh =>
    List.any_eq_true.2 ⟨range, hrange, by simp [hlow, hhigh]⟩
  simp only [isBlank, Bool.or_eq_true, Bool.and_eq_true, beq_iff_eq, decide_eq_true_eq, Char.le_def,
    UInt32.le_iff_toNat_le] at h
  rcases h with (((((((((rfl | ⟨-, hhigh⟩) | rfl) | rfl) | rfl) | ⟨hlow, hhigh⟩) | rfl) | rfl) | rfl)
    | rfl) | rfl
  · decide
  · exact hmem (0, 0x60) (by decide) (Nat.zero_le _) (Nat.le_trans hhigh (by decide))
  · decide
  · decide
  · decide
  · exact hmem (0x2000, 0x200a) (by decide) hlow hhigh
  all_goals decide

include hp

theorem free_smallForm {c : Char} (hc : p c = false) (before after : List Char) :
    ∀ d ∈ smallForm before c after, p d = false := by
  intro d hd
  rcases (mem_smallForm hd).2 with rfl | hout
  · exact hc
  · rw [← Bool.not_eq_true]
    intro hd
    rw [hp d hd] at hout
    cases hout

theorem free_lowerAfter {before cs : List Char} (h : ∀ c ∈ cs, p c = false) :
    ∀ d ∈ lowerAfter before cs, p d = false := by
  intro d hd
  obtain ⟨before', c, after, hc, hform⟩ := mem_lowerAfter hd
  exact free_smallForm hp (h c hc) before' after d hform

theorem head?_lowerAfter {before cs : List Char} (h : ∀ c ∈ cs.head?, p c = false) :
    ∀ d ∈ (lowerAfter before cs).head?, p d = false := by
  cases cs with
  | nil => exact fun d hd => nomatch hd
  | cons c cs =>
    obtain ⟨first, rest, hform⟩ := List.exists_cons_of_ne_nil (smallForm_ne_nil before cs c)
    intro d hd
    rw [lowerAfter, hform, List.cons_append, List.head?_cons, Option.mem_some] at hd
    refine free_smallForm hp (h c rfl) before cs d ?_
    rw [hform, ← hd]
    exact List.mem_cons_self

theorem getLast?_lowerAfter {before cs : List Char} (h : ∀ c ∈ cs.getLast?, p c = false) :
    ∀ d ∈ (lowerAfter before cs).getLast?, p d = false := by
  cases cs using List.reverseRecOn with
  | nil => exact fun d hd => nomatch hd
  | append_singleton cs c =>
    obtain ⟨start, hstart⟩ := lowerAfter_concat before cs c
    rw [hstart, List.getLast?_append,
      Option.or_of_isSome (List.getLast?_isSome.2 (smallForm_ne_nil _ _ c))]
    exact fun d hd => free_smallForm hp (h c (by simp)) _ _ d (List.mem_of_mem_getLast? hd)

end Marks

end CueScript.Text

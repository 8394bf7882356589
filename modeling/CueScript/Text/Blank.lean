set_option autoImplicit false

/-! # Blank characters and trimming

A character is *blank* when Unicode gives it the property `White_Space`; the zero-width space and
the byte order mark are not. Everything here works on the list of a text's characters. Trimming is
stated for any class of characters, because keyword names lose blanks at their ends while tokens
lose punctuation.

The lemmas say what trimming leaves: a piece of the list (`trim_infix`) with no character of the
class at either end. -/

namespace CueScript.Text

/-- The characters with the Unicode property `White_Space`. -/
def isBlank (c : Char) : Bool :=
  c == ' ' || ('\t' ≤ c && c ≤ '\r') || c == '\u0085' || c == '\u00a0' || c == '\u1680' ||
    ('\u2000' ≤ c && c ≤ '\u200a') || c == '\u2028' || c == '\u2029' || c == '\u202f' ||
    c == '\u205f' || c == '\u3000'

/-- A text with nothing but blanks in it. -/
def allBlank (cs : List Char) : Bool := cs.all isBlank

/-- Drop the characters of the class `p` from the end of the list. -/
def dropRight (p : Char → Bool) : List Char → List Char
  | [] => []
  | c :: cs =>
    match dropRight p cs with
    | [] => if p c then [] else [c]
    | kept => c :: kept

/-- Drop the characters of the class `p` from both ends of the list. -/
def trimBy (p : Char → Bool) (cs : List Char) : List Char :=
  dropRight p (cs.dropWhile p)

/-- Drop blanks from both ends of a text. -/
def trim (s : String) : String := String.ofList (trimBy isBlank s.toList)

/-! ## What trimming leaves -/

theorem dropRight_initial (p : Char → Bool) (cs : List Char) : dropRight p cs <+: cs := by
  induction cs with
  | nil => exact List.prefix_refl _
  | cons c cs ih =>
    rw [dropRight]
    split
    · split
      · exact List.nil_prefix
      · exact ⟨cs, rfl⟩
    · exact List.cons_prefix_cons.2 ⟨rfl, ih⟩

theorem trim_infix (p : Char → Bool) (cs : List Char) : trimBy p cs <:+: cs :=
  (dropRight_initial p _).isInfix.trans (List.dropWhile_suffix p).isInfix

/-- The last character that stays is not of the class. -/
theorem dropRight_concat (p : Char → Bool) (cs : List Char) (c : Char) :
    dropRight p (cs ++ [c]) = if p c then dropRight p cs else cs ++ [c] := by
  induction cs with
  | nil => simp [dropRight]
  | cons d cs ih =>
    simp only [List.cons_append, dropRight, ih]
    by_cases hc : p c
    · simp [hc]
    · simp only [hc]
      cases cs <;> rfl

/-- What is dropped from the end is of the class. -/
theorem exists_dropRight_append (p : Char → Bool) (cs : List Char) :
    ∃ dropped, cs = dropRight p cs ++ dropped ∧ ∀ c ∈ dropped, p c = true := by
  induction cs with
  | nil => exact ⟨[], rfl, List.forall_mem_nil _⟩
  | cons c cs ih =>
    obtain ⟨dropped, heq, hdropped⟩ := ih
    rw [dropRight]
    split
    · next hnil =>
      rw [hnil, List.nil_append] at heq
      cases hc : p c with
      | true => exact ⟨c :: cs, rfl, List.forall_mem_cons.2 ⟨hc, heq ▸ hdropped⟩⟩
      | false => exact ⟨cs, rfl, heq ▸ hdropped⟩
    · exact ⟨dropped, congrArg (c :: ·) heq, hdropped⟩

/-- A character that is not of the class stays, with everything before it. -/
theorem dropRight_append_cons (p : Char → Bool) {c : Char} (hc : p c = false) (cs ds : List Char) :
    dropRight p (cs ++ c :: ds) = cs ++ c :: dropRight p ds := by
  induction cs with
  | nil => cases h : dropRight p ds <;> simp [dropRight, hc, h]
  | cons d cs ih =>
    rw [List.cons_append, dropRight, ih]
    cases cs <;> rfl

/-- It makes no difference which end is trimmed first. -/
theorem trimBy_eq_dropWhile (p : Char → Bool) (cs : List Char) :
    trimBy p cs = (dropRight p cs).dropWhile p := by
  unfold trimBy
  induction cs with
  | nil => rfl
  | cons c cs ih =>
    cases hc : p c with
    | true =>
      rw [List.dropWhile_cons_of_pos hc, ih, dropRight]
      cases dropRight p cs <;> simp [hc]
    | false =>
      have hright := dropRight_append_cons p hc [] cs
      rw [List.nil_append, List.nil_append] at hright
      simp [hright, hc]

/-- Nothing stays exactly if every character is of the class. -/
theorem dropRight_eq_nil_iff {p : Char → Bool} {cs : List Char} :
    dropRight p cs = [] ↔ ∀ c ∈ cs, p c = true := by
  induction cs with
  | nil => simp [dropRight]
  | cons c cs ih =>
    rw [List.forall_mem_cons, ← ih, dropRight]
    cases dropRight p cs <;> simp

theorem trimBy_eq_nil_iff {p : Char → Bool} {cs : List Char} :
    trimBy p cs = [] ↔ ∀ c ∈ cs, p c = true := by
  induction cs with
  | nil => simp [trimBy, dropRight]
  | cons c cs ih =>
    cases hc : p c with
    | true => rw [trimBy, List.dropWhile_cons_of_pos hc, ← trimBy, ih, List.forall_mem_cons, hc,
        eq_self, true_and]
    | false => rw [trimBy, List.dropWhile_cons_of_neg (by simp [hc]), dropRight_eq_nil_iff]

/-- Characters of the class around a text make no difference. -/
theorem trimBy_append {p : Char → Bool} {left right : List Char} (hleft : ∀ c ∈ left, p c = true)
    (hright : ∀ c ∈ right, p c = true) (cs : List Char) :
    trimBy p (left ++ cs ++ right) = trimBy p cs := by
  have hdrop : ∀ ds, (left ++ ds).dropWhile p = ds.dropWhile p := by
    intro ds
    induction left with
    | nil => rfl
    | cons c left ih =>
      rw [List.forall_mem_cons] at hleft
      rw [List.cons_append, List.dropWhile_cons_of_pos hleft.1, ih hleft.2]
  have hdropRight : dropRight p (cs ++ right) = dropRight p cs := by
    induction cs with
    | nil => exact dropRight_eq_nil_iff.2 hright
    | cons c cs ih => rw [List.cons_append, dropRight, dropRight, ih]
  rw [List.append_assoc, trimBy, hdrop, ← trimBy, trimBy_eq_dropWhile, hdropRight,
    ← trimBy_eq_dropWhile]

/-- A character that is not of the class stays, with what trimming at the front leaves of the
    characters before it and trimming at the end of those after it. -/
theorem trimBy_append_cons {p : Char → Bool} {c : Char} (hc : p c = false) (cs ds : List Char) :
    trimBy p (cs ++ c :: ds) = cs.dropWhile p ++ c :: dropRight p ds := by
  have hdrop : (cs ++ c :: ds).dropWhile p = cs.dropWhile p ++ c :: ds := by
    induction cs with
    | nil => rw [List.nil_append, List.dropWhile_cons_of_neg (by simp [hc])]; rfl
    | cons d cs ih =>
      rw [List.cons_append, List.dropWhile_cons, List.dropWhile_cons, ih]
      split <;> rfl
  rw [trimBy, hdrop, dropRight_append_cons p hc]

/-- A text with no character of the class at its end keeps it. -/
theorem dropRight_eq_self {p : Char → Bool} {cs : List Char}
    (h : ∀ c ∈ cs.getLast?, p c = false) : dropRight p cs = cs := by
  induction cs with
  | nil => rfl
  | cons c cs ih =>
    cases cs with
    | nil => simp [dropRight, h c rfl]
    | cons d cs =>
      rw [List.getLast?_cons_cons] at h
      rw [dropRight, ih h]

theorem getLast?_dropRight (p : Char → Bool) (cs : List Char) :
    ∀ c ∈ (dropRight p cs).getLast?, p c = false := by
  induction cs with
  | nil => exact fun c hc => nomatch hc
  | cons d cs ih =>
    rw [dropRight]
    cases hkept : dropRight p cs with
    | nil => cases hd : p d <;> simp [hd]
    | cons e kept =>
      rw [hkept] at ih
      simpa using ih

/-- A text with no character of the class at either end stays as it is. -/
theorem trimBy_eq_self {p : Char → Bool} {cs : List Char} (hfirst : ∀ c ∈ cs.head?, p c = false)
    (hlast : ∀ c ∈ cs.getLast?, p c = false) : trimBy p cs = cs := by
  have hdrop : cs.dropWhile p = cs := by
    cases cs with
    | nil => rfl
    | cons c cs => rw [List.dropWhile_cons_of_neg (by simp [hfirst c rfl])]
  rw [trimBy, hdrop, dropRight_eq_self hlast]

/-- Trimming leaves no character of the class at the front. -/
theorem head?_trimBy (p : Char → Bool) (cs : List Char) :
    ∀ c ∈ (trimBy p cs).head?, p c = false := by
  intro c hc
  have h := List.head?_dropWhile_not p (dropRight p cs)
  rwa [← trimBy_eq_dropWhile, Option.mem_def.1 hc] at h

/-- Trimming leaves no character of the class at the end. -/
theorem getLast?_trimBy (p : Char → Bool) (cs : List Char) :
    ∀ c ∈ (trimBy p cs).getLast?, p c = false :=
  getLast?_dropRight p _

end CueScript.Text

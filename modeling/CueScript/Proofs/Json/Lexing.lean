import CueScript.Json.Lexeme
import CueScript.Json.Print
import Mathlib.Tactic.SplitIfs

set_option autoImplicit false

/-! # Written text and its lexemes

What the writer puts down for a string or a whole number, the machine reads as one lexeme, whatever
follows. A string ends with its quote. A number has no end of its own: the lexeme comes out when the
next character is seen, so that character must not be one that belongs to a number. -/

namespace CueScript.Json

/-! ## Blank space -/

/-- Is the text blank space and nothing else? -/
def IsGap (cs : List Char) : Prop := ∀ c ∈ cs, isSpace c = true

theorem isGap_nil : IsGap [] := List.forall_mem_nil _

theorem isGap_space : IsGap [' '] := by simp [IsGap, isSpace]

theorem isGap_newLine (level : Nat) : IsGap (newLine level) := by
  rw [IsGap, newLine, List.forall_mem_cons]
  exact ⟨rfl, fun c hc => by rw [List.eq_of_mem_replicate hc]; rfl⟩

theorem lexFrom_gap {gap : List Char} (hgap : IsGap gap) (rest : List Char) :
    lexFrom .between (gap ++ rest) = lexFrom .between rest := by
  induction gap with
  | nil => rfl
  | cons c cs ih =>
    rw [IsGap, List.forall_mem_cons] at hgap
    have hstep : step .between c = ([], .between) := by
      unfold step begin
      exact if_pos hgap.1
    rw [List.cons_append, lexFrom, hstep, ih hgap.2, List.nil_append]

/-! ## Strings -/

/-- The escape of a control character by its code is read as the character. -/
theorem lexFrom_code (read : List Char) {c : Char} (hc : c.toNat < 0x20) (rest : List Char) :
    lexFrom (.string read) (['\\', 'u', '0', '0'] ++ Text.hexPair c.toNat ++ rest)
      = lexFrom (.string (c :: read)) rest := by
  have hhigh := Text.hexValue?_hexDigit (n := c.toNat / 16) (by omega)
  have hlow := Text.hexValue?_hexDigit (n := c.toNat % 16) (by omega)
  have hvalue : ((0 * 16 + 0) * 16 + 0) * 16 + c.toNat / 16 = c.toNat / 16 := by omega
  have hcode : c.toNat / 16 * 16 + c.toNat % 16 = c.toNat := by omega
  have hzero : Text.hexValue? '0' = some 0 := by decide
  have hend : endCode read none c.toNat = ([], .string (c :: read)) := by
    have hlow' : (0xdc00 ≤ c.toNat && c.toNat ≤ 0xdfff) = false := by simp; omega
    have hhigh' : (0xd800 ≤ c.toNat && c.toNat ≤ 0xdbff) = false := by simp; omega
    simp [endCode, hlow', hhigh', Char.ofNat_toNat]
  simp [lexFrom, step, Text.hexPair, hzero, hhigh, hlow, hcode, hend]

/-- What stands for a character in a string is read as the character. -/
theorem lexFrom_stringChar (read : List Char) (c : Char) (rest : List Char) :
    lexFrom (.string read) (stringChar c ++ rest) = lexFrom (.string (c :: read)) rest := by
  unfold stringChar
  split_ifs with hquote hslash hback hfeed hline hreturn htab hcontrol
  · subst hquote; rfl
  · subst hslash; rfl
  · subst hback; rfl
  · subst hfeed; rfl
  · subst hline; rfl
  · subst hreturn; rfl
  · subst htab; rfl
  · exact lexFrom_code read hcontrol rest
  · simp [lexFrom, step, hquote, hslash, hcontrol]

theorem lexFrom_flatMap_stringChar (read cs rest : List Char) :
    lexFrom (.string read) (cs.flatMap stringChar ++ rest)
      = lexFrom (.string (cs.reverse ++ read)) rest := by
  induction cs generalizing read with
  | nil => rfl
  | cons c cs ih =>
    rw [List.flatMap_cons, List.append_assoc, lexFrom_stringChar, ih]
    simp

/-- **A written string is read as one lexeme**, whatever characters it is made of. -/
theorem lexFrom_stringChars (s : String) (rest : List Char) :
    lexFrom .between (stringChars s ++ rest) = .string s :: lexFrom .between rest := by
  have hopen : lexFrom .between ('"' :: (s.toList.flatMap stringChar ++ '"' :: rest))
      = lexFrom (.string []) (s.toList.flatMap stringChar ++ '"' :: rest) := rfl
  have hclose : lexFrom (.string (s.toList.reverse ++ [])) ('"' :: rest)
      = .string (String.ofList (s.toList.reverse ++ []).reverse) :: lexFrom .between rest := rfl
  have htext : stringChars s ++ rest = '"' :: (s.toList.flatMap stringChar ++ '"' :: rest) := by
    simp [stringChars]
  rw [htext, hopen, lexFrom_flatMap_stringChar, hclose]
  simp

/-! ## Whole numbers -/

/-- Is the next character none that belongs to a number? -/
def endsNumeral : List Char → Bool
  | [] => true
  | c :: _ => !c.isDigit && c != '.' && c != 'e' && c != 'E'

/-- Where the machine stands after the sign of a number. -/
def afterSign (negative : Bool) : Phase := if negative then .minus else .between

theorem digit?_digitChar {d : Nat} (hd : d < 10) : digit? (Nat.digitChar d) = some d := by
  have all : ∀ k : Fin 10, digit? (Nat.digitChar k.val) = some k.val := by decide
  exact all ⟨d, hd⟩

theorem step_digitChar (negative : Bool) {d : Nat} (hd : d < 10) :
    step (afterSign negative) (Nat.digitChar d) = ([], beginNumeral negative d) := by
  have all : ∀ b : Bool, ∀ k : Fin 10,
      step (afterSign b) (Nat.digitChar k.val) = ([], beginNumeral b k.val) := by decide
  exact all negative ⟨d, hd⟩

/-- The digits of a number that fits are read as that number, whatever follows. -/
theorem lexFrom_toDigits (negative : Bool) {n : Nat} (hpos : 0 < n) (hn : n ≤ naturalLimit)
    (rest : List Char) :
    lexFrom (afterSign negative) (Nat.toDigits 10 n ++ rest)
      = lexFrom (.whole ⟨negative, n, 0, false, true⟩) rest := by
  -- The machine reads from the left, so the induction takes the last digit off.
  induction n using Nat.strongRecOn generalizing rest with
  | ind n ih =>
    by_cases hsmall : n < 10
    · rw [Nat.toDigits_of_lt_base hsmall, List.singleton_append, lexFrom,
        step_digitChar negative hsmall, beginNumeral, if_neg (by omega), List.nil_append]
    · have hlast : n % 10 < 10 := Nat.mod_lt n (by omega)
      have hall : n / 10 * 10 + n % 10 = n := by omega
      have hfits : Numeral.fits ⟨negative, n / 10, 0, false, true⟩ (n % 10) = true := by
        simp [Numeral.fits, hall, hn]
      rw [Nat.toDigits_of_base_le (by omega) (by omega), List.append_assoc, List.singleton_append,
        ih (n / 10) (by omega) (by omega) (by omega)]
      simp [lexFrom, step, digit?_digitChar hlast, Numeral.addWhole, hfits, hall]

/-- A numeral without a point and without an exponent comes out at a character that ends it. -/
theorem lexFrom_numeral {n : Numeral} {k : Int} (hn : n.lexeme none = .integer k)
    {rest : List Char} (hrest : endsNumeral rest = true) :
    lexFrom (.whole n) rest = .integer k :: lexFrom .between rest
      ∧ lexFrom (.zero n) rest = .integer k :: lexFrom .between rest := by
  cases rest with
  | nil => simp [lexFrom, finish, hn]
  | cons c rest =>
    simp only [endsNumeral, Bool.and_eq_true, Bool.not_eq_true', bne_iff_ne] at hrest
    obtain ⟨⟨⟨hdigit, hpoint⟩, he⟩, hE⟩ := hrest
    constructor <;> simp [lexFrom, step, digit?, hdigit, hpoint, he, hE, endNumeral, hn]

/-- **A written whole number is read as one lexeme**, if it fits 64 bits. -/
theorem lexFrom_integer {k : Int} (hlow : -(negativeLimit : Int) ≤ k) (hhigh : k ≤ naturalLimit)
    {rest : List Char} (hrest : endsNumeral rest = true) :
    lexFrom .between ((toString k).toList ++ rest) = .integer k :: lexFrom .between rest := by
  obtain n | n := k
  · have htext : (toString (Int.ofNat n)).toList = Nat.toDigits 10 n := by
      rw [← Nat.toList_repr]
      rfl
    rw [htext]
    obtain rfl | hpos := Nat.eq_zero_or_pos n
    · exact (lexFrom_numeral rfl hrest).2
    · have hread := lexFrom_toDigits false hpos (by simpa using hhigh) rest
      rw [afterSign, if_neg Bool.false_ne_true] at hread
      rw [hread]
      exact (lexFrom_numeral rfl hrest).1
  · have htext : (toString (Int.negSucc n)).toList = '-' :: Nat.toDigits 10 (n + 1) := by
      rw [← Nat.toList_repr]
      exact String.toList_append ..
    have hn : n + 1 ≤ negativeLimit := by omega
    have hsign : lexFrom .between ('-' :: (Nat.toDigits 10 (n + 1) ++ rest))
        = lexFrom (afterSign true) (Nat.toDigits 10 (n + 1) ++ rest) := rfl
    rw [htext, List.cons_append, hsign,
      lexFrom_toDigits true (Nat.succ_pos n) (Nat.le_trans hn (by decide))]
    have hlexeme : Numeral.lexeme ⟨true, n + 1, 0, false, true⟩ none
        = .integer (Int.negSucc n) := by
      simp [Numeral.lexeme, hn, Int.negSucc_eq]
    exact (lexFrom_numeral hlexeme hrest).1

end CueScript.Json

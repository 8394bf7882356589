import CueScript.Script.Commands
import Mathlib.Algebra.Group.Nat.Even

set_option autoImplicit false

/-! # Cutting around quoted text

Whether a quote is open after a text hangs on the number of quotes in it (`openAfter_eq_self_iff`).
No cut is made inside a quoted text or through one of its quotes, and what stands before it and
after it is cut as if it stood alone: the quoted text joins the last piece before it to the first
piece after it (`pieces_quoted`). -/

namespace CueScript.Script

/-! ## Open quotes -/

/-- Is a quote open after the text, if `inQuotes` tells whether one was open before it? -/
def openAfter (inQuotes : Bool) : List Char → Bool
  | [] => inQuotes
  | c :: cs => openAfter (if c = '"' then !inQuotes else inQuotes) cs

theorem openAfter_append (inQuotes : Bool) (cs ds : List Char) :
    openAfter inQuotes (cs ++ ds) = openAfter (openAfter inQuotes cs) ds := by
  induction cs generalizing inQuotes with
  | nil => rfl
  | cons c cs ih => exact ih _

theorem openAfter_cons (inQuotes : Bool) (c : Char) (cs : List Char) :
    openAfter inQuotes (c :: cs) = openAfter (openAfter inQuotes [c]) cs := rfl

/-- An even number of quotes leaves things as they were. -/
theorem openAfter_eq_self_iff {inQuotes : Bool} {cs : List Char} :
    openAfter inQuotes cs = inQuotes ↔ Even (cs.count '"') := by
  induction cs generalizing inQuotes with
  | nil => simp [openAfter]
  | cons c cs ih =>
    rw [openAfter]
    by_cases hc : c = '"'
    · have hflip := @ih (!inQuotes)
      rw [if_pos hc, hc, List.count_cons_self, Nat.even_add_one, ← hflip]
      cases inQuotes <;> simp
    · rw [if_neg hc, List.count_cons_of_ne hc, ih]

theorem openAfter_of_not_mem {cs : List Char} (h : '"' ∉ cs) (inQuotes : Bool) :
    openAfter inQuotes cs = inQuotes := by
  rw [openAfter_eq_self_iff, List.count_eq_zero.2 h]
  exact Even.zero

/-! ## No cut at a quote -/

/-- One step of cutting. -/
theorem piecesFrom_zero_cons (separator : List Char) (inQuotes : Bool) (piece : List Char)
    (c : Char) (cs : List Char) :
    piecesFrom separator inQuotes piece 0 (c :: cs)
      = if !openAfter inQuotes [c] && cutsHere separator piece (c :: cs) then
          piece.reverse :: piecesFrom separator (openAfter inQuotes [c]) [] (separator.length - 1) cs
        else piecesFrom separator (openAfter inQuotes [c]) (c :: piece) 0 cs := rfl

section

variable {separator : List Char}

/-- A quote that follows hides no cut and makes none. -/
theorem cutsHere_append_quote (hquote : '"' ∉ separator) (piece cs rest : List Char) :
    cutsHere separator piece (cs ++ '"' :: rest) = cutsHere separator piece cs := by
  rw [cutsHere, cutsHere, Text.dropPrefix?_append_cons hquote]
  cases Text.dropPrefix? separator cs with
  | none => rfl
  | some after =>
    have hdigit : beginsWithDigit (after ++ '"' :: rest) = beginsWithDigit after := by
      cases after <;> rfl
    simp only [Option.map_some, hdigit]

theorem cutsHere_quote (hne : separator ≠ []) (hquote : '"' ∉ separator) (piece rest : List Char) :
    cutsHere separator piece ('"' :: rest) = false := by
  rw [← List.nil_append ('"' :: rest), cutsHere_append_quote hquote]
  cases separator with
  | nil => exact absurd rfl hne
  | cons c separator => rfl

/-- A cut is made where the separator stands. -/
theorem exists_after_of_cutsHere {piece cs : List Char} (h : cutsHere separator piece cs = true) :
    ∃ after, cs = separator ++ after := by
  unfold cutsHere at h
  split at h
  · next after hafter => exact ⟨after, Text.dropPrefix?_eq_some_iff.1 hafter⟩
  · cases h

/-- The rest of the separator follows the character at which a cut is made. -/
theorem skipped_of_cutsHere (hquote : '"' ∉ separator) {piece : List Char} {c : Char}
    {cs : List Char} (h : cutsHere separator piece (c :: cs) = true) :
    separator.length - 1 ≤ cs.length ∧ '"' ∉ cs.take (separator.length - 1) := by
  obtain ⟨after, hafter⟩ := exists_after_of_cutsHere h
  cases separator with
  | nil => simp
  | cons d separator =>
    obtain ⟨rfl, rfl⟩ := List.cons.inj hafter
    rw [List.mem_cons, not_or] at hquote
    simpa using hquote.2

/-- What stands before a quote is cut as if it stood alone, but its last piece stays open. -/
theorem piecesFrom_append_quote (hquote : '"' ∉ separator) {inQuotes : Bool} {piece : List Char}
    {skip : Nat} {cs : List Char} (hpiece : openAfter false piece.reverse = inQuotes)
    (hskip : skip ≤ cs.length) (hskipped : '"' ∉ cs.take skip) :
    ∃ before last, piecesFrom separator inQuotes piece skip cs = before ++ [last.reverse]
      ∧ openAfter false last.reverse = openAfter inQuotes cs
      ∧ ∀ rest, piecesFrom separator inQuotes piece skip (cs ++ '"' :: rest)
        = before ++ piecesFrom separator (openAfter inQuotes cs) last 0 ('"' :: rest) := by
  induction cs generalizing inQuotes piece skip with
  | nil =>
    obtain rfl : skip = 0 := Nat.le_zero.1 hskip
    exact ⟨[], piece, rfl, hpiece, fun rest => rfl⟩
  | cons c cs ih =>
    cases skip with
    | succ skip =>
      -- The character belongs to the separator of the last cut, so it is not a quote.
      rw [List.take_succ_cons, List.mem_cons, not_or] at hskipped
      rw [openAfter, if_neg (Ne.symm hskipped.1)]
      exact ih hpiece (Nat.le_of_succ_le_succ hskip) hskipped.2
    | zero =>
      have hcut : ∀ rest, cutsHere separator piece (c :: (cs ++ '"' :: rest))
          = cutsHere separator piece (c :: cs) := cutsHere_append_quote hquote piece (c :: cs)
      simp only [List.cons_append, piecesFrom_zero_cons separator inQuotes piece c, hcut]
      rw [openAfter_cons inQuotes c cs]
      split
      · next hcuts =>
        rw [Bool.and_eq_true, Bool.not_eq_true'] at hcuts
        obtain ⟨hlength, hnone⟩ := skipped_of_cutsHere hquote hcuts.2
        obtain ⟨before, last, hpieces, hlast, hjoined⟩ :=
          @ih _ [] _ hcuts.1.symm hlength hnone
        exact ⟨piece.reverse :: before, last, by rw [hpieces, List.cons_append], hlast,
          fun rest => by rw [hjoined, List.cons_append]⟩
      · exact ih (by rw [List.reverse_cons, openAfter_append, hpiece]) (Nat.zero_le _) (by simp)

/-- Inside quotes nothing is cut. -/
theorem piecesFrom_inside {text : List Char} (htext : '"' ∉ text) (piece rest : List Char) :
    piecesFrom separator true piece 0 (text ++ rest)
      = piecesFrom separator true (text.reverse ++ piece) 0 rest := by
  induction text generalizing piece with
  | nil => rfl
  | cons c text ih =>
    rw [List.mem_cons, not_or] at htext
    simp [piecesFrom, Ne.symm htext.1, ih htext.2]

/-- A text and the quotes around it. -/
def quoted (text : List Char) : List Char := '"' :: (text ++ ['"'])

/-- A quoted text becomes part of the piece in which it stands. -/
theorem piecesFrom_quoted (hne : separator ≠ []) (hquote : '"' ∉ separator) {text : List Char}
    (htext : '"' ∉ text) (piece rest : List Char) :
    piecesFrom separator false piece 0 (quoted text ++ rest)
      = piecesFrom separator false ((quoted text).reverse ++ piece) 0 rest := by
  have hopening : piecesFrom separator false piece 0 ('"' :: (text ++ '"' :: rest))
      = piecesFrom separator true ('"' :: piece) 0 (text ++ '"' :: rest) := by
    simp [piecesFrom]
  have hclosing : ∀ run, piecesFrom separator true run 0 ('"' :: rest)
      = piecesFrom separator false ('"' :: run) 0 rest := by
    intro run
    simp [piecesFrom, cutsHere_quote hne hquote]
  simp only [quoted, List.cons_append, List.append_assoc, List.nil_append]
  rw [hopening, piecesFrom_inside htext, hclosing]
  simp

/-- What a piece begins with has no say in the cuts, if no digit stands at its end. -/
theorem piecesFrom_append_piece {base : List Char} (hbase : endsInDigit base = false)
    (inQuotes : Bool) (piece : List Char) (skip : Nat) (cs : List Char) :
    ∃ first after, piecesFrom separator inQuotes piece skip cs = first :: after
      ∧ piecesFrom separator inQuotes (piece ++ base) skip cs
        = (base.reverse ++ first) :: after := by
  have hcut : ∀ piece rest, cutsHere separator (piece ++ base) rest
      = cutsHere separator piece rest := by
    intro piece rest
    have hdigit : endsInDigit (piece ++ base) = endsInDigit piece := by
      cases piece with
      | nil => exact hbase
      | cons c piece => rfl
    simp only [cutsHere, hdigit]
  induction cs generalizing inQuotes piece skip with
  | nil => exact ⟨piece.reverse, [], rfl, by simp [piecesFrom]⟩
  | cons c cs ih =>
    cases skip with
    | succ skip => exact ih inQuotes piece skip
    | zero =>
      simp only [piecesFrom_zero_cons, hcut]
      split
      · exact ⟨piece.reverse, _, rfl, by simp⟩
      · exact ih _ (c :: piece) 0

end

/-- **A quoted text is not cut.** It joins the last piece of what stands before it to the first
    piece of what stands after it, and all other pieces are the same. -/
theorem pieces_quoted {separator p text : List Char} (hquote : '"' ∉ separator)
    (hp : Even (p.count '"')) (htext : '"' ∉ text) (q : List Char) :
    ∃ before last first after, pieces separator p = before ++ [last]
      ∧ openAfter false last = false
      ∧ pieces separator q = first :: after
      ∧ pieces separator (p ++ quoted text ++ q)
        = before ++ (last ++ quoted text ++ first) :: after := by
  have hclosed : openAfter false p = false := openAfter_eq_self_iff.2 hp
  by_cases hne : separator = []
  · subst hne
    exact ⟨[], p, q, [], rfl, hclosed, rfl, rfl⟩
  obtain ⟨before, last, hbefore, hlast, hjoined⟩ := piecesFrom_append_quote hquote
    (show openAfter false [].reverse = false from rfl) (Nat.zero_le p.length) (by simp)
  -- What follows the closing quote is cut as if its piece began there.
  have hdigit : endsInDigit ((quoted text).reverse ++ last) = false := by
    simp [quoted, endsInDigit]
  obtain ⟨first, after, hafter, hfirst⟩ := piecesFrom_append_piece hdigit false [] 0 q
  have hseparator : separator.isEmpty = false := by simpa using hne
  refine ⟨before, last.reverse, first, after, ?_, by rw [hlast, hclosed], ?_, ?_⟩
  · simpa [pieces, hseparator] using hbefore
  · simpa [pieces, hseparator] using hafter
  · rw [List.nil_append] at hfirst
    rw [pieces, if_neg (by simpa using hne)]
    calc piecesFrom separator false [] 0 (p ++ quoted text ++ q)
        = before ++ piecesFrom separator false last 0 (quoted text ++ q) := by
          simpa [quoted, hclosed] using hjoined (text ++ '"' :: q)
      _ = before ++ piecesFrom separator false ((quoted text).reverse ++ last) 0 q := by
          rw [piecesFrom_quoted hne hquote htext]
      _ = before ++ (((quoted text).reverse ++ last).reverse ++ first) :: after := by rw [hfirst]
      _ = before ++ (last.reverse ++ quoted text ++ first) :: after := by simp

end CueScript.Script

import CueScript.Proofs.Script.Cutting
import Mathlib.Data.List.Basic

set_option autoImplicit false

/-! # Where a script is cut

The cuts of a script can be described without a scan: a separator outside quotes is a cut, unless it
stands between two digits, the first of which belongs to the piece before it; and inside the pieces
no other separator is left. `Decomposes` says so of all places of a script at once. Exactly one list
of pieces fits the description, and the commands are its pieces (`commands_decompose`).

Between the scan and the description stands `Cuts`, which follows the pieces one by one. The scan
obeys it from each character to the next (`Cuts.cons`). Two lists of pieces that obey it are the
same: where the first piece of one ended earlier, the other would keep a separator inside for no
reason (`Cuts.unique`). -/

namespace CueScript.Script

/-! ## What a cut is -/

/-- Does the text end with a digit? -/
def EndsInDigit (cs : List Char) : Prop := ∃ d ∈ cs.getLast?, d.isDigit = true

/-- Does the text begin with a digit? -/
def BeginsWithDigit (cs : List Char) : Prop := ∃ d ∈ cs.head?, d.isDigit = true

/-- Is every quote in the text closed? -/
def IsClosed (cs : List Char) : Prop := Even (cs.count '"')

/-- The script is made of these pieces, with the separator between them. Each cut is made outside
    quotes, and not between a digit at the end of its piece and a digit behind the separator. At any
    place inside a piece where the separator stands outside quotes, it stands between such digits:
    `left` is what the piece holds before the place, and `following` is what follows the separator
    in the script. -/
structure Decomposes (separator script : List Char) (ps : List (List Char)) : Prop where
  nonempty : ps ≠ []
  joined : separator.intercalate ps = script
  cut : ∀ before p q after, ps = before ++ p :: q :: after →
    IsClosed (separator.intercalate (before ++ [p]))
      ∧ ¬ (EndsInDigit p ∧ BeginsWithDigit (separator.intercalate (q :: after)))
  kept : ∀ before left c right after following, ps = before ++ (left ++ c :: right) :: after →
    separator.intercalate ((c :: right) :: after) = separator ++ following →
    IsClosed (separator.intercalate (before ++ [left])) →
    EndsInDigit left ∧ BeginsWithDigit following

/-- A piece that goes on with `p` after `before`, and has `rest` behind it in the script, keeps the
    separators that stand in `p` for good reason. -/
def Keeps (separator before p rest : List Char) : Prop :=
  ∀ left c right following, p = left ++ c :: right → c :: right ++ rest = separator ++ following →
    IsClosed (before ++ left) → EndsInDigit (before ++ left) ∧ BeginsWithDigit following

/-- These are the pieces of a script, whose first piece begins with `before`. -/
inductive Cuts (separator : List Char) : (before script : List Char) → List (List Char) → Prop where
  | last (before p : List Char) (keeps : Keeps separator before p []) :
      Cuts separator before p [before ++ p]
  | cut (before p rest : List Char) (ps : List (List Char)) (closed : IsClosed (before ++ p))
      (noNumber : ¬ (EndsInDigit (before ++ p) ∧ BeginsWithDigit rest))
      (keeps : Keeps separator before p (separator ++ rest)) (others : Cuts separator [] rest ps) :
      Cuts separator before (p ++ (separator ++ rest)) ((before ++ p) :: ps)

variable {separator : List Char}

/-! ## The scan -/

theorem isClosed_iff {cs : List Char} : IsClosed cs ↔ openAfter false cs = false :=
  openAfter_eq_self_iff.symm

theorem endsInDigit_reverse {cs : List Char} :
    endsInDigit cs.reverse = true ↔ EndsInDigit cs := by
  rw [endsInDigit, List.head?_reverse, EndsInDigit]
  cases cs.getLast? <;> simp

theorem beginsWithDigit_iff {cs : List Char} : beginsWithDigit cs = true ↔ BeginsWithDigit cs := by
  rw [beginsWithDigit, BeginsWithDigit]
  cases cs.head? <;> simp

/-- A cut is made where the separator stands, but not inside a number. -/
theorem cutsHere_iff {before rest : List Char} :
    cutsHere separator before.reverse rest = true
      ↔ ∃ after, rest = separator ++ after ∧ ¬ (EndsInDigit before ∧ BeginsWithDigit after) := by
  have hdigits : ∀ after, (!(endsInDigit before.reverse && beginsWithDigit after)) = true
      ↔ ¬ (EndsInDigit before ∧ BeginsWithDigit after) := by
    intro after
    rw [Bool.not_eq_true', ← Bool.not_eq_true, Bool.and_eq_true, endsInDigit_reverse,
      beginsWithDigit_iff]
  unfold cutsHere
  split
  · next after hafter =>
    rw [Text.dropPrefix?_eq_some_iff] at hafter
    subst hafter
    rw [hdigits]
    simp
  · next hnone =>
    refine iff_of_false (by simp) ?_
    rintro ⟨after, rfl, -⟩
    rw [Text.dropPrefix?_eq_some_iff.2 rfl] at hnone
    cases hnone

/-- The rest of a separator is passed over. -/
theorem piecesFrom_skip (inQuotes : Bool) (piece : List Char) (skip : Nat) (cs : List Char) :
    piecesFrom separator inQuotes piece skip cs
      = piecesFrom separator inQuotes piece 0 (cs.drop skip) := by
  induction skip generalizing cs with
  | zero => rfl
  | succ skip ih =>
    cases cs with
    | nil => rfl
    | cons c cs => exact ih cs

theorem keeps_nil (before rest : List Char) : Keeps separator before [] rest := by
  intro left c right following h
  simp at h

theorem Keeps.cons {before p rest : List Char} {c : Char}
    (here : ∀ following, c :: p ++ rest = separator ++ following → IsClosed before →
      EndsInDigit before ∧ BeginsWithDigit following)
    (h : Keeps separator (before ++ [c]) p rest) : Keeps separator before (c :: p) rest := by
  intro left d right following hp hrest hclosed
  cases left with
  | nil =>
    obtain ⟨rfl, rfl⟩ := List.cons.inj hp
    rw [List.append_nil] at hclosed ⊢
    exact here following hrest hclosed
  | cons e left =>
    obtain ⟨rfl, rfl⟩ := List.cons.inj hp
    rw [List.append_cons] at hclosed ⊢
    exact h left d right following rfl hrest hclosed

/-- A character at which no cut is made belongs to its piece. -/
theorem Cuts.cons {before cs : List Char} {c : Char} {ps : List (List Char)}
    (here : ∀ following, c :: cs = separator ++ following → IsClosed before →
      EndsInDigit before ∧ BeginsWithDigit following)
    (h : Cuts separator (before ++ [c]) cs ps) : Cuts separator before (c :: cs) ps := by
  cases h with
  | last _ _ keeps =>
    rw [← List.append_cons]
    exact .last before (c :: cs) (.cons (by simpa using here) keeps)
  | cut _ p rest ps closed noNumber keeps others =>
    rw [← List.append_cons] at closed noNumber ⊢
    exact .cut before (c :: p) rest ps closed noNumber (.cons here keeps) others

/-- The scan cuts as it should, from any place in a piece on. -/
theorem cuts_piecesFrom (hne : separator ≠ []) (hquote : '"' ∉ separator)
    (before cs : List Char) :
    Cuts separator before cs
      (piecesFrom separator (openAfter false before) before.reverse 0 cs) := by
  obtain ⟨n, hn⟩ : ∃ n, cs.length = n := ⟨_, rfl⟩
  induction n using Nat.strong_induction_on generalizing before cs with
  | _ n ih =>
  cases cs with
  | nil =>
    have h : Cuts separator before [] [before ++ []] := .last before [] (keeps_nil before [])
    simpa [piecesFrom] using h
  | cons c cs =>
    -- Where the separator begins, there is no quote.
    have hhere : ∀ following, c :: cs = separator ++ following →
        openAfter false (before ++ [c]) = openAfter false before := by
      intro following hfollowing
      cases separator with
      | nil => exact absurd rfl hne
      | cons d separator =>
        obtain ⟨rfl, -⟩ := List.cons.inj hfollowing
        rw [List.mem_cons, not_or] at hquote
        rw [openAfter_append, openAfter, if_neg (Ne.symm hquote.1), openAfter]
    rw [piecesFrom_zero_cons, ← openAfter_append]
    split
    · next hcut =>
      rw [Bool.and_eq_true, Bool.not_eq_true', cutsHere_iff] at hcut
      obtain ⟨hclosed, after, hafter, hdigits⟩ := hcut
      have hdrop : cs.drop (separator.length - 1) = after := by
        cases separator with
        | nil => exact absurd rfl hne
        | cons d separator =>
          obtain ⟨-, rfl⟩ := List.cons.inj hafter
          simp
      have hshorter : after.length < n := by
        have := congrArg List.length hafter
        have := List.length_pos_of_ne_nil hne
        simp only [List.length_cons, List.length_append] at *
        omega
      rw [hclosed, piecesFrom_skip, hdrop, hafter]
      have hbefore : IsClosed before := isClosed_iff.2 (by rw [← hhere after hafter, hclosed])
      have hothers : Cuts separator [] after (piecesFrom separator false [] 0 after) :=
        ih after.length hshorter [] after rfl
      have h := Cuts.cut before [] after _ (by simpa using hbefore) (by simpa using hdigits)
        (keeps_nil before (separator ++ after)) hothers
      simpa using h
    · next hcut =>
      rw [Bool.and_eq_true, not_and, Bool.not_eq_true', cutsHere_iff] at hcut
      have hothers := ih cs.length (by rw [← hn]; exact Nat.lt_succ_self _) (before ++ [c]) cs rfl
      rw [List.reverse_concat] at hothers
      refine .cons (fun following hfollowing hclosed => ?_) hothers
      rw [isClosed_iff, ← hhere following hfollowing] at hclosed
      by_contra hdigits
      exact hcut hclosed ⟨following, hfollowing, hdigits⟩

/-! ## One list of pieces -/

/-- Where a cut could be made, no piece goes on. -/
theorem Keeps.eq_nil {before p more rest rest' : List Char}
    (h : Keeps separator before (p ++ more) rest') (same : more ++ rest' = separator ++ rest)
    (closed : IsClosed (before ++ p))
    (noNumber : ¬ (EndsInDigit (before ++ p) ∧ BeginsWithDigit rest)) : more = [] := by
  cases more with
  | nil => rfl
  | cons d right => exact absurd (h p d right rest rfl same closed) noNumber

theorem Cuts.unique (hne : separator ≠ []) {before script : List Char} {ps qs : List (List Char)}
    (h : Cuts separator before script ps) (h' : Cuts separator before script qs) : ps = qs := by
  induction h generalizing qs with
  | last before p keeps =>
    cases h' with
    | last _ _ _ => rfl
    | cut _ p' rest' ps' closed' noNumber' _ _ =>
      have hnil := keeps.eq_nil (List.append_nil _) closed' noNumber'
      exact absurd (List.append_eq_nil_iff.1 hnil).1 hne
  | cut before p rest ps closed noNumber keeps _ ih =>
    generalize hscript : p ++ (separator ++ rest) = script at h'
    cases h' with
    | last _ _ keeps' =>
      subst hscript
      have hnil := keeps'.eq_nil (List.append_nil _) closed noNumber
      exact absurd (List.append_eq_nil_iff.1 hnil).1 hne
    | cut _ p' rest' ps' closed' noNumber' keeps' others' =>
      have hp : p = p' ∧ separator ++ rest = separator ++ rest' := by
        rcases List.append_eq_append_iff.1 hscript with ⟨more, rfl, hmore⟩ | ⟨more, rfl, hmore⟩
        · obtain rfl : more = [] := keeps'.eq_nil hmore.symm closed noNumber
          exact ⟨(List.append_nil _).symm, hmore⟩
        · obtain rfl : more = [] := keeps.eq_nil hmore.symm closed' noNumber'
          exact ⟨List.append_nil _, hmore.symm⟩
      obtain ⟨rfl, hrest⟩ := hp
      obtain rfl : rest = rest' := List.append_cancel_left hrest
      rw [ih others']

/-! ## The description follows the pieces -/

theorem isClosed_append (hquote : '"' ∉ separator) {p : List Char} (hp : IsClosed p)
    (cs : List Char) : IsClosed (p ++ separator ++ cs) ↔ IsClosed cs := by
  rw [IsClosed, List.count_append, List.count_append, List.count_eq_zero.2 hquote, Nat.add_zero,
    Nat.even_add]
  exact iff_true_left hp

theorem intercalate_cons_append (p q : List Char) (before : List (List Char)) :
    separator.intercalate (p :: (before ++ [q]))
      = p ++ separator ++ separator.intercalate (before ++ [q]) := by
  cases before <;> exact List.intercalate_cons_cons

theorem Cuts.ne_nil {before script : List Char} {ps : List (List Char)}
    (h : Cuts separator before script ps) : ps ≠ [] := by
  cases h <;> exact List.cons_ne_nil _ _

theorem cuts_singleton {script p : List Char} :
    Cuts separator [] script [p] ↔ p = script ∧ Keeps separator [] p [] := by
  constructor
  · intro h
    cases h with
    | last _ _ keeps => exact ⟨rfl, keeps⟩
    | cut _ _ _ _ _ _ _ others => exact absurd rfl others.ne_nil
  · rintro ⟨rfl, keeps⟩
    exact .last [] p keeps

theorem cuts_cons_cons {script p q : List Char} {ps : List (List Char)} :
    Cuts separator [] script (p :: q :: ps)
      ↔ ∃ rest, script = p ++ (separator ++ rest) ∧ IsClosed p
        ∧ ¬ (EndsInDigit p ∧ BeginsWithDigit rest) ∧ Keeps separator [] p (separator ++ rest)
        ∧ Cuts separator [] rest (q :: ps) := by
  constructor
  · intro h
    cases h with
    | cut _ p rest ps closed noNumber keeps others =>
      exact ⟨rest, rfl, closed, noNumber, keeps, others⟩
  · rintro ⟨rest, rfl, closed, noNumber, keeps, others⟩
    exact .cut [] p rest _ closed noNumber keeps others

theorem decomposes_singleton {script p : List Char} :
    Decomposes separator script [p] ↔ p = script ∧ Keeps separator [] p [] := by
  constructor
  · intro h
    refine ⟨by simpa using h.joined, fun left c right following hp hrest hclosed => ?_⟩
    exact h.kept [] left c right [] following (by rw [hp]; rfl) (by simpa using hrest)
      (by simpa using hclosed)
  · rintro ⟨rfl, keeps⟩
    refine ⟨List.cons_ne_nil _ _, List.intercalate_singleton, fun before p' q after hps => ?_,
      fun before left c right after following hps hrest hclosed => ?_⟩
    · cases before <;> simp at hps
    · cases before with
      | nil =>
        obtain ⟨rfl, rfl⟩ := List.cons.inj hps
        exact keeps left c right following rfl (by simpa using hrest) (by simpa using hclosed)
      | cons b before => simp at hps

theorem decomposes_cons_cons (hquote : '"' ∉ separator) {script p q : List Char}
    {ps : List (List Char)} :
    Decomposes separator script (p :: q :: ps)
      ↔ ∃ rest, script = p ++ (separator ++ rest) ∧ IsClosed p
        ∧ ¬ (EndsInDigit p ∧ BeginsWithDigit rest) ∧ Keeps separator [] p (separator ++ rest)
        ∧ Decomposes separator rest (q :: ps) := by
  constructor
  · intro h
    obtain ⟨hclosed, hdigits⟩ := h.cut [] p q ps rfl
    rw [List.nil_append, List.intercalate_singleton] at hclosed
    refine ⟨_, ?_, hclosed, hdigits, fun left c right following hp hrest hleft => ?_,
      List.cons_ne_nil _ _, rfl, fun before p' q' after hps => ?_,
      fun before left c right after following hps hrest hleft => ?_⟩
    · rw [← h.joined, List.intercalate_cons_cons, List.append_assoc]
    · refine h.kept [] left c right (q :: ps) following (by rw [hp]; rfl) ?_ (by simpa using hleft)
      rw [List.intercalate_cons_cons, List.append_assoc, hrest]
    · have hcut := h.cut (p :: before) p' q' after (by rw [hps]; rfl)
      rwa [List.cons_append, intercalate_cons_append, isClosed_append hquote hclosed] at hcut
    · refine h.kept (p :: before) left c right after following (by rw [hps]; rfl) hrest ?_
      rwa [List.cons_append, intercalate_cons_append, isClosed_append hquote hclosed]
  · rintro ⟨rest, rfl, closed, noNumber, keeps, others⟩
    obtain rfl := others.joined
    refine ⟨List.cons_ne_nil _ _, by rw [List.intercalate_cons_cons, List.append_assoc],
      fun before p' q' after hps => ?_,
      fun before left c right after following hps hfollowing hleft => ?_⟩
    · cases before with
      | nil =>
        obtain ⟨rfl, hothers⟩ := List.cons.inj hps
        obtain ⟨rfl, rfl⟩ := List.cons.inj hothers
        exact ⟨by simpa using closed, noNumber⟩
      | cons b before =>
        obtain ⟨rfl, hothers⟩ := List.cons.inj hps
        rw [List.cons_append, intercalate_cons_append, isClosed_append hquote closed]
        exact others.cut before p' q' after hothers
    · cases before with
      | nil =>
        obtain ⟨hp, rfl⟩ := List.cons.inj hps
        refine keeps left c right following hp ?_ (by simpa using hleft)
        rw [← hfollowing, List.intercalate_cons_cons, List.append_assoc]
      | cons b before =>
        obtain ⟨rfl, hothers⟩ := List.cons.inj hps
        rw [List.cons_append, intercalate_cons_append, isClosed_append hquote closed] at hleft
        exact others.kept before left c right after following hothers hfollowing hleft

/-- What is said of all places of a script is said of its pieces one by one. -/
theorem decomposes_iff_cuts (hquote : '"' ∉ separator) {script : List Char}
    {ps : List (List Char)} : Decomposes separator script ps ↔ Cuts separator [] script ps := by
  induction ps generalizing script with
  | nil => exact iff_of_false (fun h => h.nonempty rfl) fun h => h.ne_nil rfl
  | cons p ps ih =>
    cases ps with
    | nil => rw [decomposes_singleton, cuts_singleton]
    | cons q ps => simp only [decomposes_cons_cons hquote, cuts_cons_cons, ih]

/-! ## Commands -/

/-- The commands of a script are its pieces, trimmed, without the blank ones. -/
theorem commands_eq (separator script : String) :
    commands separator script
      = ((pieces separator.toList script.toList).map fun p => Text.trim (String.ofList p)).filter
        (· ≠ "") := by
  rw [commands]
  induction pieces separator.toList script.toList with
  | nil => rfl
  | cons p ps ih =>
    simp only [List.map_cons, List.filterMap_cons, Text.trim, String.toList_ofList]
    cases h : Text.trimBy Text.isBlank p with
    | nil => simpa [h, Text.trim] using ih
    | cons c cs => simpa [h, Text.trim] using ih

/-- **A script is cut at its separators and nowhere else.** Take any script, and a separator that is
    not empty and has no quote in it. Exactly one list of pieces makes up the script in such a way
    that every cut is outside quotes and outside numbers, and every separator that a piece keeps is
    inside quotes or inside a number. The commands are these pieces, trimmed, in order, without the
    blank ones. -/
theorem commands_decompose (separator script : String) (hne : separator ≠ "")
    (hquote : '"' ∉ separator.toList) :
    ∃ ps, Decomposes separator.toList script.toList ps
      ∧ (∀ qs, Decomposes separator.toList script.toList qs → qs = ps)
      ∧ commands separator script
        = (ps.map fun p => Text.trim (String.ofList p)).filter (· ≠ "") := by
  have hne' : separator.toList ≠ [] := by simpa using hne
  have hpieces : pieces separator.toList script.toList
      = piecesFrom separator.toList false [] 0 script.toList := by
    rw [pieces, if_neg (by simpa using hne)]
  have hcuts : Cuts separator.toList [] script.toList
      (pieces separator.toList script.toList) := by
    rw [hpieces]
    exact cuts_piecesFrom hne' hquote [] script.toList
  have hiff := fun ps => @decomposes_iff_cuts _ hquote script.toList ps
  exact ⟨_, (hiff _).2 hcuts, fun qs hqs => ((hiff qs).1 hqs).unique hne' hcuts,
    commands_eq separator script⟩

/-- Of three dots the first two are cut at, two dots in a number are not, and quotes keep theirs. -/
theorem commands_decompose_two_dots :
    ".." ≠ "" ∧ '"' ∉ "..".toList
      ∧ commands ".." "up...5..6 \"a..b\".. ..7 \".." = ["up", ".5..6 \"a..b\"", "7 \".."]
      ∧ ∃ ps, Decomposes "..".toList "up...5..6 \"a..b\".. ..7 \"..".toList ps
        ∧ (∀ qs, Decomposes "..".toList "up...5..6 \"a..b\".. ..7 \"..".toList qs → qs = ps)
        ∧ commands ".." "up...5..6 \"a..b\".. ..7 \".."
          = (ps.map fun p => Text.trim (String.ofList p)).filter (· ≠ "") := by
  have hne : ".." ≠ "" := by decide
  have hquote : '"' ∉ "..".toList := by decide
  exact ⟨hne, hquote, by decide, commands_decompose _ _ hne hquote⟩

end CueScript.Script

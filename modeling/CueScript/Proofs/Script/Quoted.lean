import CueScript.Command.Compile
import CueScript.Proofs.Registry.History
import CueScript.Proofs.Script.Cutting
import CueScript.Script.Tokens
import Mathlib.Data.List.Induction

set_option autoImplicit false

/-! # Quoted text in scripts

Cutting a script, trimming its commands and reading them in runs keep their own account of the open
quotes. A quoted text passes through all three as one token that is exactly what was written, and
the tokens before it and after it are those of the texts around it (`quoted_intact`).

That holds because blanks outside quotes are in no token: trimming a piece takes nothing else away
from what stands before the quoted text, and the end of a piece is trimmed as it would be alone. -/

namespace CueScript

namespace Script

/-- The tokens in the characters of a command. -/
def tokensOf (lowercase : Bool) (cs : List Char) : List String :=
  (runsFrom false [] cs).filterMap (token? lowercase)

/-- The tokens of all commands of a script. -/
def allTokens (lowercase : Bool) (separator script : String) : List String :=
  (commands separator script).flatMap (tokens lowercase)

variable {lowercase : Bool}

/-! ## Runs -/

/-- Reading goes on where it was: with the run that is still open. -/
theorem runsFrom_append (inQuotes : Bool) (run cs : List Char) :
    ∃ before last, runsFrom inQuotes run cs = before ++ [last.reverse]
      ∧ ∀ rest, runsFrom inQuotes run (cs ++ rest)
        = before ++ runsFrom (openAfter inQuotes cs) last rest := by
  induction cs generalizing inQuotes run with
  | nil => exact ⟨[], run, rfl, fun rest => rfl⟩
  | cons c cs ih =>
    -- A run that ends with this character stands before all that follow.
    have hflush : ∀ (ended : List Char) (inQuotes' : Bool) (run' : List Char),
        ∃ before last, ended :: runsFrom inQuotes' run' cs = before ++ [last.reverse]
          ∧ ∀ rest, ended :: runsFrom inQuotes' run' (cs ++ rest)
            = before ++ runsFrom (openAfter inQuotes' cs) last rest := by
      intro ended inQuotes' run'
      obtain ⟨before, last, hruns, hrest⟩ := ih inQuotes' run'
      exact ⟨ended :: before, last, by rw [hruns, List.cons_append],
        fun rest => by rw [hrest, List.cons_append]⟩
    simp only [List.cons_append, runsFrom, openAfter]
    by_cases hc : c = '"'
    · simp only [hc, if_true]
      cases inQuotes with
      | true => exact hflush _ false []
      | false => exact hflush _ true ['"']
    · simp only [hc, if_false]
      split
      · next hblank =>
        rw [Bool.and_eq_true, Bool.not_eq_true'] at hblank
        rw [hblank.2]
        exact hflush _ false []
      · exact ih inQuotes (c :: run)

/-- A quoted text is a run of its own. -/
theorem runsFrom_quoted {text : List Char} (htext : '"' ∉ text) (run rest : List Char) :
    runsFrom false run (quoted text ++ rest)
      = run.reverse :: quoted text :: runsFrom false [] rest := by
  have hinside : ∀ run, runsFrom true run (text ++ '"' :: rest)
      = (run.reverse ++ text ++ ['"']) :: runsFrom false [] rest := by
    induction text with
    | nil => simp [runsFrom]
    | cons c text ih =>
      rw [List.mem_cons, not_or] at htext
      intro run
      simp [runsFrom, Ne.symm htext.1, ih htext.2]
  simp [quoted, runsFrom, hinside]

theorem runsFrom_append_quoted {cs text : List Char} (hclosed : openAfter false cs = false)
    (htext : '"' ∉ text) (rest : List Char) :
    runsFrom false [] (cs ++ quoted text ++ rest)
      = runsFrom false [] cs ++ quoted text :: runsFrom false [] rest := by
  obtain ⟨before, last, hruns, hrest⟩ := runsFrom_append false [] cs
  rw [List.append_assoc, hrest, hclosed, runsFrom_quoted htext, hruns]
  simp

/-! ## The tokens of a command -/

/-- A quoted run is a token as it stands. -/
theorem token?_quoted (text : List Char) :
    token? lowercase (quoted text) = some (String.ofList (quoted text)) := by
  have hquote : isPunctuation '"' = false := by decide
  have htrim : Text.trimBy isPunctuation (quoted text) = quoted text := by
    have hright := Text.dropRight_append_cons isPunctuation hquote ('"' :: text) []
    rw [Text.trimBy, quoted, List.dropWhile_cons_of_neg (by simp [hquote])]
    exact hright
  simp only [token?, htrim]
  simp [quoted, isQuoted]

/-- A quoted text is one token, and parts the tokens before it from those after it. -/
theorem tokensOf_quoted {cs text : List Char} (hclosed : openAfter false cs = false)
    (htext : '"' ∉ text) (rest : List Char) :
    tokensOf lowercase (cs ++ quoted text ++ rest)
      = tokensOf lowercase cs ++ String.ofList (quoted text) :: tokensOf lowercase rest := by
  rw [tokensOf, runsFrom_append_quoted hclosed htext, List.filterMap_append,
    List.filterMap_cons_some (token?_quoted text), tokensOf, tokensOf]

theorem tokens_ofList (cs : List Char) :
    tokens lowercase (String.ofList cs) = tokensOf lowercase cs := by
  rw [tokens, String.toList_ofList, tokensOf]

/-! ## Blanks around a command -/

theorem ne_quote_of_isBlank {c : Char} (hc : Text.isBlank c = true) : c ≠ '"' := by
  rintro rfl
  revert hc
  decide

theorem tokensOf_cons_of_isBlank {c : Char} (hc : Text.isBlank c = true) (cs : List Char) :
    tokensOf lowercase (c :: cs) = tokensOf lowercase cs := by
  have hruns : runsFrom false [] (c :: cs) = [] :: runsFrom false [] cs := by
    simp [runsFrom, ne_quote_of_isBlank hc, hc]
  rw [tokensOf, hruns]
  rfl

/-- Blanks before a command are no part of its tokens. -/
theorem tokensOf_dropWhile (cs : List Char) :
    tokensOf lowercase (cs.dropWhile Text.isBlank) = tokensOf lowercase cs := by
  induction cs with
  | nil => rfl
  | cons c cs ih =>
    rw [List.dropWhile_cons]
    split
    · next hc => rw [ih, tokensOf_cons_of_isBlank hc]
    · rfl

/-- A blank outside quotes parts the tokens before it from those after it. -/
theorem tokensOf_append_cons_of_isBlank {cs : List Char} (hclosed : openAfter false cs = false)
    {c : Char} (hc : Text.isBlank c = true) (rest : List Char) :
    tokensOf lowercase (cs ++ c :: rest) = tokensOf lowercase cs ++ tokensOf lowercase rest := by
  obtain ⟨before, last, hruns, hrest⟩ := runsFrom_append false [] cs
  have hlast : runsFrom false last (c :: rest) = last.reverse :: runsFrom false [] rest := by
    simp [runsFrom, ne_quote_of_isBlank hc, hc]
  rw [tokensOf, hrest, hclosed, hlast, List.append_cons, ← hruns, List.filterMap_append, tokensOf,
    tokensOf]

theorem tokensOf_concat_of_isBlank {cs : List Char} (hclosed : openAfter false cs = false)
    {c : Char} (hc : Text.isBlank c = true) :
    tokensOf lowercase (cs ++ [c]) = tokensOf lowercase cs := by
  rw [tokensOf_append_cons_of_isBlank hclosed hc]
  exact List.append_nil _

/-- Blanks behind a command are no part of its tokens, unless a quote is open there. -/
theorem tokensOf_dropRight {cs : List Char} (hclosed : openAfter false cs = false) :
    tokensOf lowercase (Text.dropRight Text.isBlank cs) = tokensOf lowercase cs := by
  induction cs using List.reverseRecOn with
  | nil => rfl
  | append_singleton cs c ih =>
    rw [Text.dropRight_concat]
    split
    · next hc =>
      have hopen : openAfter false (cs ++ [c]) = openAfter false cs := by
        rw [openAfter_append, openAfter, if_neg (ne_quote_of_isBlank hc), openAfter]
      rw [hopen] at hclosed
      rw [ih hclosed, tokensOf_concat_of_isBlank hclosed hc]
    · rfl

/-- Of trimming, reading sees only what it does to the end. -/
theorem tokensOf_trimBy (cs : List Char) :
    tokensOf lowercase (Text.trimBy Text.isBlank cs)
      = tokensOf lowercase (Text.dropRight Text.isBlank cs) := by
  rw [Text.trimBy_eq_dropWhile, tokensOf_dropWhile]

theorem tokensOf_trimBy_quoted {cs text : List Char} (hclosed : openAfter false cs = false)
    (htext : '"' ∉ text) (rest : List Char) :
    tokensOf lowercase (Text.trimBy Text.isBlank (cs ++ quoted text ++ rest))
      = tokensOf lowercase (Text.trimBy Text.isBlank cs) ++ String.ofList (quoted text)
        :: tokensOf lowercase (Text.trimBy Text.isBlank rest) := by
  have hright : Text.dropRight Text.isBlank (cs ++ quoted text ++ rest)
      = cs ++ quoted text ++ Text.dropRight Text.isBlank rest := by
    have hquote : Text.isBlank '"' = false := by decide
    have h := Text.dropRight_append_cons Text.isBlank hquote (cs ++ '"' :: text) rest
    simpa [quoted] using h
  rw [tokensOf_trimBy, hright, tokensOf_quoted hclosed htext, tokensOf_trimBy, tokensOf_trimBy,
    tokensOf_dropRight hclosed]

/-! ## The tokens of a script -/

/-- A blank piece is no command, and it has no tokens either. -/
theorem allTokens_eq (lowercase : Bool) (separator script : String) :
    allTokens lowercase separator script
      = (pieces separator.toList script.toList).flatMap fun piece =>
        tokensOf lowercase (Text.trimBy Text.isBlank piece) := by
  rw [allTokens, commands]
  induction pieces separator.toList script.toList with
  | nil => rfl
  | cons piece rest ih =>
    rw [List.map_cons, List.flatMap_cons, ← ih]
    cases Text.trimBy Text.isBlank piece with
    | nil => rfl
    | cons c cs =>
      rw [← tokens_ofList]
      rfl

/-- A quoted text is one token of a script, and parts the tokens before it from those after it. -/
theorem allTokens_append_quoted {separator p t : String} (hquote : '"' ∉ separator.toList)
    (hp : Even (p.toList.count '"')) (ht : '"' ∉ t.toList) (lowercase : Bool) (q : String) :
    allTokens lowercase separator (p ++ String.ofList (quoted t.toList) ++ q)
      = allTokens lowercase separator p ++ String.ofList (quoted t.toList)
        :: allTokens lowercase separator q := by
  obtain ⟨before, last, first, after, hbefore, hclosed, hafter, hall⟩ :=
    pieces_quoted hquote hp ht q.toList
  rw [allTokens_eq, allTokens_eq, allTokens_eq, String.toList_append, String.toList_append,
    String.toList_ofList, hall, hbefore, hafter]
  -- Only the piece in which the quoted text stands differs.
  rw [List.flatMap_append, List.flatMap_append, List.flatMap_cons, List.flatMap_cons,
    tokensOf_trimBy_quoted hclosed ht]
  simp

end Script

/-! ## What a quoted text means -/

/-- A quoted text that is not a word of the vocabulary means the text. -/
theorem Registry.meaning_of_quoted {α : Type} {r : Registry α} (t : String)
    (h : r.resolve? (String.ofList (Script.quoted t.toList)) = none) :
    r.meaning (String.ofList (Script.quoted t.toList)) = .ok (some (.value (.text t))) := by
  have hunquote : unquote? (Script.quoted t.toList) = some t.toList :=
    Text.dropSuffix?_eq_some_iff.2 rfl
  simp [meaning, h, literal?, hunquote]

/-- **Quoted text passes through intact.** Let `t` hold no quote, and let every quote before it be
    closed. Wherever it stands in a script, `t` with its quotes is a token of its own, whatever the
    separator, if no quote is part of it: nothing is cut, trimmed or folded. The tokens before it
    and after it are those of the texts around it. And unless this token is a word of the
    vocabulary, it means exactly the text `t`. -/
theorem quoted_intact {separator p t : String} (hquote : '"' ∉ separator.toList)
    (hp : Even (p.toList.count '"')) (ht : '"' ∉ t.toList) (lowercase : Bool) (q : String) :
    let token := "\"" ++ t ++ "\""
    Script.allTokens lowercase separator (p ++ token ++ q)
        = Script.allTokens lowercase separator p ++ [token] ++ Script.allTokens lowercase separator q
      ∧ ∀ (α : Type) (r : Registry α), r.resolve? token = none →
        r.meaning token = .ok (some (.value (.text t))) := by
  intro token
  have htoken : token = String.ofList (Script.quoted t.toList) := by
    rw [← String.toList_inj]
    simp [token, Script.quoted]
  rw [htoken]
  refine ⟨?_, fun α r => Registry.meaning_of_quoted t⟩
  simpa using Script.allTokens_append_quoted hquote hp ht lowercase q

/-- Separators, capitals and punctuation stay in quotes, and a quote may stay open behind them. -/
theorem quoted_intact_between_numbers :
    let token := "\"Hello. BYE, 2.5\n(X)\""
    let r : Registry Unit :=
      (Registry.history [.draft { kind := some (.value .color), words := ["hello"] }]).2
    '"' ∉ ". ".toList ∧ Even ("Print 2. ".toList.count '"')
      ∧ '"' ∉ "Hello. BYE, 2.5\n(X)".toList
      ∧ Script.allTokens true ". " ("Print 2. " ++ token ++ ".5 And \"open. ")
        = ["print", "2"] ++ [token] ++ [".5", "and", "\"open."]
      ∧ r.resolve? token = none
      ∧ r.meaning token = .ok (some (.value (.text "Hello. BYE, 2.5\n(X)"))) := by
  intro token r
  have hquote : '"' ∉ ". ".toList := by decide
  have hp : Even ("Print 2. ".toList.count '"') := by decide
  have ht : '"' ∉ "Hello. BYE, 2.5\n(X)".toList := by decide
  have hword : r.resolve? token = none := rfl
  have h := quoted_intact hquote hp ht true ".5 And \"open. "
  exact ⟨hquote, hp, ht, h.1, hword, h.2 Unit r hword⟩

end CueScript

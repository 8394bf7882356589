import CueScript.Proofs.Registry.History
import CueScript.Proofs.Script.Quoted
import Mathlib.Data.List.TakeWhile

set_option autoImplicit false

/-! # Words that can be spoken

Admission refuses words with blanks in them, so that a command can name every word of a vocabulary
in one token. Reading a command does more to a token than to end it at a blank: punctuation at its
ends is dropped, capitals may be folded, and a quote begins or ends a run. What is left of a word is
its spoken form. `spoken_iff` says for every registered word whether it is read as one token that
means the same keyword: what is left of it has to be one run, and a word of that keyword again. -/

namespace CueScript

namespace Script

/-- What is left of a word without the punctuation at its ends. -/
def bare (cs : List Char) : List Char := Text.trimBy isPunctuation cs

/-- Is the text read in one run? A quote may only stand at its beginning, and then once more at its
    end. -/
def isOneRun (cs : List Char) : Bool :=
  !cs.contains '"' || (isQuoted cs && !cs.tail.dropLast.contains '"')

/-- What is left of a word in a command: it loses the punctuation at its ends and, if tokens are
    folded and no quote begins it, its capitals. -/
def spoken (lowercase : Bool) (word : String) : String :=
  if lowercase && !isQuoted (bare word.toList) then
    Text.lowercase (String.ofList (bare word.toList))
  else String.ofList (bare word.toList)

variable {lowercase : Bool}

/-! ## What is left of a run -/

theorem isPunctuation_quote : isPunctuation '"' = false := by decide

/-- A run leaves a token unless it is all punctuation. -/
theorem token?_eq_none_iff {cs : List Char} :
    token? lowercase cs = none ↔ ∀ c ∈ cs, isPunctuation c = true := by
  rw [← Text.trimBy_eq_nil_iff, token?]
  cases Text.trimBy isPunctuation cs with
  | nil => simp
  | cons c cs => simp only [List.isEmpty_cons, Bool.false_eq_true, if_false]; split <;> simp

/-- The token of a word that is one run is the spoken form of the word. -/
theorem token?_eq_some_iff {word token : String} :
    token? lowercase word.toList = some token
      ↔ bare word.toList ≠ [] ∧ token = spoken lowercase word := by
  rw [token?, spoken, bare]
  cases Text.trimBy isPunctuation word.toList with
  | nil => simp
  | cons c cs =>
    simp only [List.isEmpty_cons, Bool.false_eq_true, if_false, ne_eq, reduceCtorEq,
      not_false_eq_true, true_and]
    split <;> simp [eq_comm]

theorem token?_append {left right : List Char} (hleft : ∀ c ∈ left, isPunctuation c = true)
    (hright : ∀ c ∈ right, isPunctuation c = true) (cs : List Char) :
    token? lowercase (left ++ cs ++ right) = token? lowercase cs := by
  rw [token?, token?, Text.trimBy_append hleft hright]

/-- A text with a quote in it is one run only if the quote begins it and what follows has no quote,
    but perhaps at its end. -/
theorem isOneRun_append_quote {cs : List Char} (hcs : '"' ∉ cs) (ds : List Char) :
    isOneRun (cs ++ '"' :: ds) = true ↔ cs = [] ∧ '"' ∉ ds.dropLast := by
  cases cs with
  | nil => simp [isOneRun, isQuoted]
  | cons c cs =>
    rw [List.mem_cons, not_or] at hcs
    simp [isOneRun, isQuoted, Ne.symm hcs.1]

/-! ## The runs of a text without blanks -/

theorem runsFrom_of_not_mem {cs : List Char} (hquote : '"' ∉ cs) {inQuotes : Bool}
    (hblank : inQuotes = false → ∀ c ∈ cs, Text.isBlank c = false) (run : List Char) :
    runsFrom inQuotes run cs = [run.reverse ++ cs] := by
  induction cs generalizing run with
  | nil => simp [runsFrom]
  | cons c cs ih =>
    rw [List.mem_cons, not_or] at hquote
    have hc : (Text.isBlank c && !inQuotes) = false := by
      cases inQuotes with
      | true => simp
      | false => simp [hblank rfl c List.mem_cons_self]
    rw [runsFrom, if_neg (Ne.symm hquote.1), hc, if_neg Bool.false_ne_true,
      ih hquote.2 fun h d hd => hblank h d (List.mem_cons_of_mem _ hd)]
    simp

/-- Without a quote a text without blanks is one run. -/
theorem tokensOf_of_not_mem {cs : List Char} (hblank : ∀ c ∈ cs, Text.isBlank c = false)
    (hquote : '"' ∉ cs) : tokensOf lowercase cs = (token? lowercase cs).toList := by
  rw [tokensOf, runsFrom_of_not_mem hquote fun _ => hblank]
  cases h : token? lowercase cs <;> simp [h]

/-- A quote that is not closed begins a run to the end. -/
theorem tokensOf_append_open {cs text : List Char} (hcs : '"' ∉ cs) (htext : '"' ∉ text) :
    tokensOf lowercase (cs ++ '"' :: text)
      = tokensOf lowercase cs ++ (token? lowercase ('"' :: text)).toList := by
  obtain ⟨before, last, hruns, hrest⟩ := runsFrom_append false [] cs
  have hclosed := openAfter_of_not_mem hcs false
  have hopen : runsFrom false last ('"' :: text) = [last.reverse, '"' :: text] := by
    simp [runsFrom, runsFrom_of_not_mem htext]
  rw [tokensOf, tokensOf, hrest, hclosed, hopen, hruns, List.append_cons, List.filterMap_append]
  cases h : token? lowercase ('"' :: text) <;> simp [h]

/-- A text has no quote, or one that is not closed, or a quoted text in it. -/
theorem quote_cases (cs : List Char) :
    '"' ∉ cs ∨ (∃ p text, cs = p ++ '"' :: text ∧ '"' ∉ p ∧ '"' ∉ text)
      ∨ ∃ p text q, cs = p ++ quoted text ++ q ∧ '"' ∉ p ∧ '"' ∉ text := by
  by_cases hcs : '"' ∈ cs
  · obtain ⟨p, rest, rfl, hp⟩ := List.eq_append_cons_of_mem hcs
    by_cases hrest : '"' ∈ rest
    · obtain ⟨text, q, rfl, htext⟩ := List.eq_append_cons_of_mem hrest
      exact .inr (.inr ⟨p, text, q, by simp [quoted], hp, htext⟩)
    · exact .inr (.inl ⟨p, rest, rfl, hp, hrest⟩)
  · exact .inl hcs

theorem tokensOf_append_closed {p text : List Char} (hp : '"' ∉ p) (htext : '"' ∉ text)
    (q : List Char) :
    tokensOf lowercase (p ++ quoted text ++ q)
      = tokensOf lowercase p ++ String.ofList (quoted text) :: tokensOf lowercase q :=
  tokensOf_quoted (openAfter_of_not_mem hp false) htext q

/-- A text without blanks has no tokens exactly if it is all punctuation. -/
theorem tokensOf_eq_nil_iff {cs : List Char} (hblank : ∀ c ∈ cs, Text.isBlank c = false) :
    tokensOf lowercase cs = [] ↔ ∀ c ∈ cs, isPunctuation c = true := by
  have hquote : ∀ p ds : List Char, ¬ ∀ c ∈ p ++ '"' :: ds, isPunctuation c = true := by
    intro p ds h
    have := h '"' (by simp)
    rw [isPunctuation_quote] at this
    cases this
  obtain h | ⟨p, text, rfl, hp, htext⟩ | ⟨p, text, q, rfl, hp, htext⟩ := quote_cases cs
  · rw [tokensOf_of_not_mem hblank h, Option.toList_eq_nil_iff, token?_eq_none_iff]
  · rw [tokensOf_append_open hp htext, List.append_eq_nil_iff, Option.toList_eq_nil_iff,
      token?_eq_none_iff]
    exact iff_of_false (fun h => hquote [] text h.2) (hquote p text)
  · rw [tokensOf_append_closed hp htext]
    refine iff_of_false (by simp) ?_
    simpa [quoted] using hquote p (text ++ '"' :: q)

/-- From its first quote on, a text has one token at least, and no other exactly if what is left of
    it is one run. -/
theorem tokensOf_append_quote {cs ds : List Char} (hcs : '"' ∉ cs)
    (hblank : ∀ c ∈ ds, Text.isBlank c = false) :
    ∃ first rest, tokensOf lowercase (cs ++ '"' :: ds) = tokensOf lowercase cs ++ first :: rest
      ∧ (isOneRun (bare ('"' :: ds)) = true ↔ rest = [])
      ∧ (rest = [] → token? lowercase ('"' :: ds) = some first) := by
  have hbare : isOneRun (bare ('"' :: ds)) = true
      ↔ '"' ∉ (Text.dropRight isPunctuation ds).dropLast := by
    have hone : isOneRun ([] ++ '"' :: Text.dropRight isPunctuation ds) = true ↔ _ :=
      isOneRun_append_quote List.not_mem_nil _
    rw [bare, ← List.nil_append ('"' :: ds), Text.trimBy_append_cons isPunctuation_quote]
    simpa using hone
  by_cases hds : '"' ∈ ds
  · obtain ⟨text, q, rfl, htext⟩ := List.eq_append_cons_of_mem hds
    have hlist : cs ++ '"' :: (text ++ '"' :: q) = cs ++ quoted text ++ q := by simp [quoted]
    have hnil : tokensOf lowercase q = [] ↔ ∀ c ∈ q, isPunctuation c = true :=
      tokensOf_eq_nil_iff fun c hc => hblank c (by simp [hc])
    refine ⟨String.ofList (quoted text), tokensOf lowercase q, ?_, ?_, fun hq => ?_⟩
    · rw [hlist, tokensOf_append_closed hcs htext]
    · rw [hbare, hnil, ← Text.dropRight_eq_nil_iff,
        Text.dropRight_append_cons _ isPunctuation_quote,
        List.dropLast_append_of_ne_nil (List.cons_ne_nil _ _)]
      cases Text.dropRight isPunctuation q <;> simp [htext]
    · have htoken := @token?_append lowercase _ _ (List.forall_mem_nil _) (hnil.1 hq)
        (quoted text)
      rw [List.nil_append, token?_quoted] at htoken
      rw [← htoken]
      simp [quoted]
  · obtain ⟨first, hfirst⟩ : ∃ first, token? lowercase ('"' :: ds) = some first := by
      rw [← Option.ne_none_iff_exists', ne_eq, token?_eq_none_iff]
      intro h
      have := h '"' List.mem_cons_self
      rw [isPunctuation_quote] at this
      cases this
    refine ⟨first, [], ?_, ?_, fun _ => hfirst⟩
    · rw [tokensOf_append_open hcs hds, hfirst, Option.toList_some]
    · rw [hbare]
      simp only [iff_true]
      exact fun h => hds ((Text.dropRight_initial _ ds).subset (List.dropLast_subset _ h))

/-- A text without blanks is read as one token exactly if what is left of it without the punctuation
    at its ends is one run; and then the token is that of the whole text. -/
theorem tokensOf_eq_singleton_iff {cs : List Char} (hblank : ∀ c ∈ cs, Text.isBlank c = false)
    {token : String} :
    tokensOf lowercase cs = [token]
      ↔ isOneRun (bare cs) = true ∧ token? lowercase cs = some token := by
  by_cases hquote : '"' ∈ cs
  · obtain ⟨p, ds, rfl, hp⟩ := List.eq_append_cons_of_mem hquote
    rw [List.forall_mem_append, List.forall_mem_cons] at hblank
    obtain ⟨first, rest, htokens, hone, hfirst⟩ :=
      @tokensOf_append_quote lowercase _ _ hp hblank.2.2
    have hnil : tokensOf lowercase p = [] ↔ ∀ c ∈ p, isPunctuation c = true :=
      tokensOf_eq_nil_iff hblank.1
    rw [htokens]
    by_cases hpunctuation : ∀ c ∈ p, isPunctuation c = true
    · -- Nothing is left of what stands before the quote.
      have hbare : bare (p ++ '"' :: ds) = bare ('"' :: ds) := by
        simpa [bare] using Text.trimBy_append hpunctuation (List.forall_mem_nil _) ('"' :: ds)
      have htoken : token? lowercase (p ++ '"' :: ds) = token? lowercase ('"' :: ds) := by
        simpa using token?_append hpunctuation (List.forall_mem_nil _) ('"' :: ds)
      rw [hnil.2 hpunctuation, hbare, htoken, hone, List.nil_append, List.cons.injEq]
      constructor
      · rintro ⟨rfl, hrest⟩
        exact ⟨hrest, hfirst hrest⟩
      · rintro ⟨hrest, heq⟩
        rw [hfirst hrest, Option.some.injEq] at heq
        exact ⟨heq, hrest⟩
    · -- What is left of it is a token of its own, and the quote does not begin the rest.
      refine iff_of_false (fun h => ?_) fun h => ?_
      · rw [List.append_eq_singleton_iff] at h
        obtain ⟨h, -⟩ | ⟨-, h⟩ := h
        · exact hpunctuation (hnil.1 h)
        · cases h
      · rw [bare, Text.trimBy_append_cons isPunctuation_quote, isOneRun_append_quote] at h
        · exact hpunctuation (List.dropWhile_eq_nil_iff.1 h.1.1)
        · exact fun hmem => hp ((List.dropWhile_sublist _).subset hmem)
  · have hbare : isOneRun (bare cs) = true := by
      have hnot : '"' ∉ bare cs := fun hmem => hquote ((Text.trim_infix _ cs).subset hmem)
      simp [isOneRun, hnot]
    rw [tokensOf_of_not_mem hblank hquote, hbare]
    cases token? lowercase cs <;> simp

/-- A single word is read as one token exactly if what is left of it is one run and not nothing, and
    then the token is the spoken form of the word. -/
theorem tokens_eq_singleton_iff {word token : String}
    (hblank : ∀ c ∈ word.toList, Text.isBlank c = false) :
    tokens lowercase word = [token]
      ↔ isOneRun (bare word.toList) = true ∧ bare word.toList ≠ []
        ∧ token = spoken lowercase word := by
  rw [← token?_eq_some_iff]
  exact tokensOf_eq_singleton_iff hblank

theorem spoken_of_bare_eq_nil {word : String} (h : bare word.toList = []) :
    spoken lowercase word = "" := by
  cases lowercase <;> simp [spoken, h, isQuoted, Text.lowercase, Text.lowerAfter]

end Script

/-! ## The words of a vocabulary -/

namespace Registry

variable {α : Type}

/-- Admission lets only single words in. -/
theorem single_of_resolve? {calls : List (Registration α)} {word : String} {e : Entry}
    (h : (history calls).2.resolve? word = some e) :
    word ≠ "" ∧ ∀ c ∈ word.toList, Text.isBlank c = false :=
  Draft.wordFault?_eq_none_iff.1 (wordFault?_of_resolve? h)

/-- **Which registered words can be spoken.** Take a word of a vocabulary, whatever was registered
    and refused before. If it is read as one token, that token is its spoken form. It is read as one
    token with the entry of the word exactly if what is left of it, without the punctuation at its
    ends, is one run, and its spoken form has that entry. So a word that is one run and its own
    spoken form is always read as itself. -/
theorem spoken_iff (calls : List (Registration α)) (word : String) (e : Entry)
    (hword : (history calls).2.resolve? word = some e) (lowercase : Bool) :
    (∀ token, Script.tokens lowercase word = [token] → token = Script.spoken lowercase word)
      ∧ ((∃ token, Script.tokens lowercase word = [token]
          ∧ (history calls).2.resolve? token = some e)
        ↔ Script.isOneRun (Script.bare word.toList) = true
          ∧ (history calls).2.resolve? (Script.spoken lowercase word) = some e)
      ∧ (Script.tokens lowercase word = [word]
        ↔ Script.isOneRun (Script.bare word.toList) = true
          ∧ Script.spoken lowercase word = word) := by
  have htokens := fun token =>
    @Script.tokens_eq_singleton_iff lowercase word token (single_of_resolve? hword).2
  have hbare : Script.spoken lowercase word ≠ "" → Script.bare word.toList ≠ [] :=
    mt Script.spoken_of_bare_eq_nil
  refine ⟨fun token h => ((htokens token).1 h).2.2, ?_, ?_⟩
  · constructor
    · rintro ⟨token, htoken, hentry⟩
      obtain ⟨hone, -, rfl⟩ := (htokens token).1 htoken
      exact ⟨hone, hentry⟩
    · rintro ⟨hone, hentry⟩
      exact ⟨_, (htokens _).2 ⟨hone, hbare (single_of_resolve? hentry).1, rfl⟩, hentry⟩
  · rw [htokens]
    constructor
    · rintro ⟨hone, -, heq⟩
      exact ⟨hone, heq.symm⟩
    · rintro ⟨hone, heq⟩
      exact ⟨hone, hbare (by rw [heq]; exact (single_of_resolve? hword).1), heq.symm⟩

/-- A word with a capital and an exclamation mark is spoken as an alias of itself. -/
theorem spoken_iff_red :
    let calls : List (Registration Unit) :=
      [.draft { kind := some (.value .color), words := ["Red!", "red"] }]
    let r := (history calls).2
    r.resolve? "Red!" = some ⟨"Red!", .value .color⟩
      ∧ ∃ token, Script.tokens true "Red!" = [token]
        ∧ r.resolve? token = some ⟨"Red!", .value .color⟩ := by
  intro calls r
  have hword : r.resolve? "Red!" = some ⟨"Red!", .value .color⟩ := rfl
  exact ⟨hword, (spoken_iff calls "Red!" _ hword true).2.1.2 ⟨rfl, rfl⟩⟩

/-- Registered words that cannot be spoken: one that ends with punctuation, one that is nothing
    else, one with a quote inside, and, where tokens are folded, one with a capital. -/
theorem word_not_spoken :
    let calls : List (Registration Unit) :=
      [.draft { kind := some .function, words := ["hey!"], handler := some ⟨0, ()⟩ },
       .draft { kind := some (.value .shape), words := [":)", "12\"tile"] },
       .draft { kind := some (.value .color), words := ["Crimson"] }]
    let r := (history calls).2
    (r.resolve? "hey!" = some ⟨"hey!", .function⟩
        ∧ (∀ lowercase, Script.tokens lowercase "hey!" = ["hey"]) ∧ r.resolve? "hey" = none)
      ∧ (r.resolve? ":)" = some ⟨":)", .value .shape⟩
        ∧ ∀ lowercase, Script.tokens lowercase ":)" = [])
      ∧ (r.resolve? "12\"tile" = some ⟨":)", .value .shape⟩
        ∧ ∀ lowercase, Script.tokens lowercase "12\"tile" = ["12", "\"tile"])
      ∧ (r.resolve? "Crimson" = some ⟨"Crimson", .value .color⟩
        ∧ Script.tokens true "Crimson" = ["crimson"] ∧ r.resolve? "crimson" = none) :=
  ⟨⟨rfl, by decide, rfl⟩, ⟨rfl, by decide⟩, ⟨rfl, by decide⟩, rfl, rfl, rfl⟩

end Registry

end CueScript

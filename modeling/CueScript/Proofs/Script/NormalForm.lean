import CueScript.Proofs.Script.Spoken
import CueScript.Proofs.Text.Lowercase

set_option autoImplicit false

/-! # Tokens in normal form

A token is a word without blanks, quotes and punctuation at its ends, or it begins with a quote and
runs to the next one. Only the last token of a command may lack its closing quote. Such a list of
tokens comes back as it is when it is written with a space between each two and read again, with
quoted text, unclosed quotes and case as they were (`tokens_normal`).

`Settled` is the invariant: it follows a list of tokens from the front, and says of each token that
it is its own token. Reading gives settled lists, by the first quote of the text; settled lists read
as themselves, by induction on `Settled`. -/

namespace CueScript.Script

variable {lowercase : Bool}

/-- A text that has no blanks, no quotes, and no punctuation at its ends. -/
structure IsWord (cs : List Char) : Prop where
  unbroken : ∀ c ∈ cs, Text.isBlank c = false
  unquoted : '"' ∉ cs
  first : ∀ c ∈ cs.head?, isPunctuation c = false
  last : ∀ c ∈ cs.getLast?, isPunctuation c = false

/-- A text that begins with a quote and has at most one more, at its end. -/
def IsQuotation (cs : List Char) : Prop :=
  ∃ text, '"' ∉ text ∧ (cs = '"' :: text ∨ cs = quoted text)

/-- A list of tokens that are their own tokens: words and quoted texts, and at the end perhaps a
    quote that is not closed. -/
inductive Settled (lowercase : Bool) : List String → Prop
  | nil : Settled lowercase []
  | word {t : String} {ts : List String} : IsWord t.toList → token? lowercase t.toList = some t →
      Settled lowercase ts → Settled lowercase (t :: ts)
  | closed {text : List Char} {ts : List String} : '"' ∉ text → Settled lowercase ts →
      Settled lowercase (String.ofList (quoted text) :: ts)
  | unclosed {text : List Char} : '"' ∉ text →
      token? lowercase ('"' :: text) = some (String.ofList ('"' :: text)) →
      Settled lowercase [String.ofList ('"' :: text)]

/-! ## The token of a run without quotes -/

/-- A word keeps its characters, but for its capitals. -/
theorem IsWord.token? {cs : List Char} (h : IsWord cs) (hne : cs ≠ []) :
    token? lowercase cs
      = some (if lowercase then Text.lowercase (String.ofList cs) else String.ofList cs) := by
  have hquoted : isQuoted cs = false := by
    cases cs with
    | nil => rfl
    | cons c cs =>
      have hc : ¬ '"' = c := fun heq => h.unquoted (heq ▸ List.mem_cons_self)
      simpa [isQuoted] using Ne.symm hc
  rw [Script.token?, Text.trimBy_eq_self h.first h.last]
  cases lowercase <;> simp [hne, hquoted]

theorem inRanges_of_isPunctuation (c : Char) (h : isPunctuation c = true) :
    Text.inRanges Text.unmadeRanges c.toNat = true := by
  have hall : [',', ';', ':', '!', '?', '(', ')', '\''].all
      (fun c => Text.inRanges Text.unmadeRanges c.toNat) = true := by decide
  exact List.all_eq_true.1 hall c (List.contains_iff_mem.1 h)

/-- A word in lower case is a word. -/
theorem IsWord.lower {cs : List Char} (h : IsWord cs) : IsWord (Text.lowerAfter [] cs) where
  unbroken := Text.free_lowerAfter Text.inRanges_of_isBlank h.unbroken
  unquoted := by
    have hquote : ∀ c : Char, (c == '"') = true →
        Text.inRanges Text.unmadeRanges c.toNat = true := by
      simp only [beq_iff_eq, forall_eq]
      decide
    have hcs : ∀ c ∈ cs, (c == '"') = false := by
      intro c hc
      rw [beq_eq_false_iff_ne]
      rintro rfl
      exact h.unquoted hc
    exact fun hmem => Bool.noConfusion (Text.free_lowerAfter hquote hcs '"' hmem)
  first := Text.head?_lowerAfter inRanges_of_isPunctuation h.first
  last := Text.getLast?_lowerAfter inRanges_of_isPunctuation h.last

/-- The token of a run without blanks and quotes is a word, and its own token. -/
theorem isWord_of_token? {run : List Char} {t : String}
    (hblank : ∀ c ∈ run, Text.isBlank c = false) (hquote : '"' ∉ run)
    (h : token? lowercase run = some t) : IsWord t.toList ∧ token? lowercase t.toList = some t := by
  obtain ⟨word, hdef⟩ : ∃ word, word = Text.trimBy isPunctuation run := ⟨_, rfl⟩
  have hsub := (Text.trim_infix isPunctuation run).subset
  have hword : IsWord word := by
    rw [hdef]
    exact ⟨fun c hc => hblank c (hsub hc), fun hmem => hquote (hsub hmem),
      Text.head?_trimBy isPunctuation run, Text.getLast?_trimBy isPunctuation run⟩
  have htoken : token? lowercase word = token? lowercase run := by
    rw [token?, token?, Text.trimBy_eq_self hword.first hword.last, hdef]
  have hne : word ≠ [] := by
    rintro rfl
    rw [← htoken] at h
    cases h
  rw [← htoken, hword.token? hne, Option.some.injEq] at h
  cases lowercase with
  | false =>
    rw [← h, if_neg Bool.false_ne_true, String.toList_ofList]
    exact ⟨hword, hword.token? hne⟩
  | true =>
    have hlower : t.toList = Text.lowerAfter [] word := by
      rw [← h, if_pos rfl, Text.lowercase, String.toList_ofList, String.toList_ofList]
    refine ⟨hlower ▸ hword.lower, ?_⟩
    have hfinal : Text.lowercase t = t := by
      rw [← h, if_pos rfl, Text.lowercase_lowercase]
    rw [hlower, hword.lower.token? (Text.lowerAfter_ne_nil hne []), ← hlower, if_pos rfl,
      String.ofList_toList, hfinal]

/-- Without a quote in the text, blanks part the runs and are in none. -/
theorem unbroken_of_mem_runsFrom {cs run : List Char} (hquote : '"' ∉ cs)
    (hrun : (∀ c ∈ run, Text.isBlank c = false) ∧ '"' ∉ run) :
    ∀ r ∈ runsFrom false run cs, (∀ c ∈ r, Text.isBlank c = false) ∧ '"' ∉ r := by
  induction cs generalizing run with
  | nil =>
    intro r hr
    rw [runsFrom, List.mem_singleton] at hr
    simpa [hr] using hrun
  | cons c cs ih =>
    rw [List.mem_cons, not_or] at hquote
    rw [runsFrom, if_neg (Ne.symm hquote.1)]
    split
    · rw [List.forall_mem_cons]
      exact ⟨by simpa using hrun, ih hquote.2 (by simp)⟩
    · next hblank =>
      refine ih hquote.2 ⟨?_, ?_⟩
      · rw [List.forall_mem_cons]
        exact ⟨by simpa using hblank, hrun.1⟩
      · rw [List.mem_cons, not_or]
        exact ⟨hquote.1, hrun.2⟩

/-! ## Reading gives settled lists -/

theorem Settled.append {ws ts : List String} (hts : Settled lowercase ts)
    (hws : ∀ w ∈ ws, IsWord w.toList ∧ token? lowercase w.toList = some w) :
    Settled lowercase (ws ++ ts) := by
  induction ws with
  | nil => exact hts
  | cons w ws ih =>
    rw [List.forall_mem_cons] at hws
    exact .word hws.1.1 hws.1.2 (ih hws.2)

theorem isWord_of_mem_tokensOf {cs : List Char} (hquote : '"' ∉ cs) :
    ∀ t ∈ tokensOf lowercase cs, IsWord t.toList ∧ token? lowercase t.toList = some t := by
  intro t ht
  obtain ⟨run, hrun, htoken⟩ := List.mem_filterMap.1 ht
  obtain ⟨hblank, hnone⟩ := unbroken_of_mem_runsFrom hquote (by simp) run hrun
  exact isWord_of_token? hblank hnone htoken

/-- A quote that is not closed loses the punctuation at the end of the text. -/
theorem settled_unclosed {text : List Char} (htext : '"' ∉ text) :
    Settled lowercase (token? lowercase ('"' :: text)).toList := by
  have htoken : ∀ text, token? lowercase ('"' :: text)
      = some (String.ofList ('"' :: Text.dropRight isPunctuation text)) := by
    intro text
    have htrim := Text.trimBy_append_cons isPunctuation_quote [] text
    rw [List.nil_append, List.dropWhile_nil, List.nil_append] at htrim
    simp [token?, htrim, isQuoted]
  rw [htoken]
  refine .unclosed (fun h => htext ((Text.dropRight_initial _ text).subset h)) ?_
  rw [htoken, Text.dropRight_eq_self (Text.getLast?_dropRight _ text)]

theorem settled_tokensOf (cs : List Char) : Settled lowercase (tokensOf lowercase cs) := by
  induction hn : cs.length using Nat.strong_induction_on generalizing cs with
  | _ n ih =>
    obtain hquote | ⟨p, text, rfl, hp, htext⟩ | ⟨p, text, q, rfl, hp, htext⟩ := quote_cases cs
    · rw [← List.append_nil (tokensOf lowercase cs)]
      exact Settled.nil.append (isWord_of_mem_tokensOf hquote)
    · rw [tokensOf_append_open hp htext]
      exact (settled_unclosed htext).append (isWord_of_mem_tokensOf hp)
    · have hlength : q.length < n := by
        rw [← hn]
        simp [quoted]
        omega
      rw [tokensOf_append_closed hp htext]
      exact (Settled.closed htext (ih _ hlength q rfl)).append (isWord_of_mem_tokensOf hp)

/-! ## Settled lists read as themselves -/

/-- Unless a quote is open behind it, the first of several tokens is read on its own. -/
theorem tokensOf_intercalate_cons {t : String} (hclosed : openAfter false t.toList = false)
    (ts : List String) :
    tokensOf lowercase (" ".intercalate (t :: ts)).toList
      = tokensOf lowercase t.toList ++ tokensOf lowercase (" ".intercalate ts).toList := by
  cases ts with
  | nil => exact (List.append_nil _).symm
  | cons u us =>
    rw [String.intercalate_cons_cons, String.toList_append, String.toList_append, List.append_assoc]
    exact tokensOf_append_cons_of_isBlank hclosed (by decide) _

theorem Settled.tokensOf_intercalate {ts : List String} (h : Settled lowercase ts) :
    tokensOf lowercase (" ".intercalate ts).toList = ts := by
  induction h with
  | nil => rfl
  | word hword hown _ ih =>
    rw [tokensOf_intercalate_cons (openAfter_of_not_mem hword.unquoted false), ih,
      tokensOf_of_not_mem hword.unbroken hword.unquoted, hown, Option.toList_some,
      List.singleton_append]
  | @closed text ts htext _ ih =>
    have hcount : (quoted text).count '"' = 2 := by simp [quoted, List.count_eq_zero.2 htext]
    have hclosed : openAfter false (String.ofList (quoted text)).toList = false := by
      rw [String.toList_ofList, openAfter_eq_self_iff, hcount]
      exact ⟨1, rfl⟩
    have hquoted := @tokensOf_append_closed lowercase _ _ List.not_mem_nil htext []
    rw [List.nil_append, List.append_nil] at hquoted
    rw [tokensOf_intercalate_cons hclosed, ih, String.toList_ofList, hquoted]
    rfl
  | unclosed htext hown =>
    have hopen := @tokensOf_append_open lowercase _ _ List.not_mem_nil htext
    rw [List.nil_append, hown] at hopen
    rw [String.intercalate_singleton, String.toList_ofList]
    exact hopen

/-- Every token of a settled list has one of the two forms. -/
theorem Settled.isWord_or_isQuotation {ts : List String} (h : Settled lowercase ts) :
    ∀ t ∈ ts, t ≠ "" ∧ (IsWord t.toList ∨ IsQuotation t.toList) := by
  induction h with
  | nil => exact List.forall_mem_nil _
  | word hword hown _ ih =>
    refine List.forall_mem_cons.2 ⟨⟨?_, .inl hword⟩, ih⟩
    rintro rfl
    cases hown
  | @closed text ts htext _ ih =>
    refine List.forall_mem_cons.2 ⟨⟨by simp [quoted], .inr ⟨text, htext, .inr ?_⟩⟩, ih⟩
    exact String.toList_ofList
  | @unclosed text htext _ =>
    refine List.forall_mem_singleton.2 ⟨by simp, .inr ⟨text, htext, .inl ?_⟩⟩
    exact String.toList_ofList

/-- Only the last token of a settled list may have a single quote. -/
theorem Settled.count_ne_one {ts : List String} (h : Settled lowercase ts) :
    ∀ t ∈ ts.dropLast, t.toList.count '"' ≠ 1 := by
  -- A token that something follows is no unclosed quote.
  have hcons : ∀ {t : String} {ts : List String}, t.toList.count '"' ≠ 1 →
      (∀ t ∈ ts.dropLast, t.toList.count '"' ≠ 1) →
      ∀ t' ∈ (t :: ts).dropLast, t'.toList.count '"' ≠ 1 := by
    intro t ts ht hts
    cases ts with
    | nil => exact List.forall_mem_nil _
    | cons u us => exact List.forall_mem_cons.2 ⟨ht, hts⟩
  induction h with
  | nil => exact List.forall_mem_nil _
  | word hword _ _ ih => exact hcons (by simp [List.count_eq_zero.2 hword.unquoted]) ih
  | closed htext _ ih => exact hcons (by simp [quoted, List.count_eq_zero.2 htext]) ih
  | unclosed => exact List.forall_mem_nil _

/-- **Tokens are in normal form, and reading them again changes nothing.** Take any command, folded
    to lower case or not. No token is empty. Each is a word, without blanks, quotes and punctuation
    at its ends, or it begins with a quote and has at most one more, at its end. Only the last one
    may have a single quote, which is then not closed. And the tokens with a space between each two
    have the same tokens. -/
theorem tokens_normal (lowercase : Bool) (command : String) :
    (∀ t ∈ tokens lowercase command, t ≠ "" ∧ (IsWord t.toList ∨ IsQuotation t.toList))
      ∧ (∀ t ∈ (tokens lowercase command).dropLast, t.toList.count '"' ≠ 1)
      ∧ tokens lowercase (" ".intercalate (tokens lowercase command))
        = tokens lowercase command := by
  have hsettled : Settled lowercase (tokens lowercase command) := settled_tokensOf command.toList
  exact ⟨hsettled.isWord_or_isQuotation, hsettled.count_ne_one, hsettled.tokensOf_intercalate⟩

/-- Glued quotes are parted, and what stands behind the last quote keeps its blanks. -/
example : tokens true "SAY,\"Hi\"\"there\" (Now) \"and, then !" =
    ["say", "\"Hi\"", "\"there\"", "now", "\"and, then "] := by decide

end CueScript.Script

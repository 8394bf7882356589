import CueScript.Proofs.Command.Alike

set_option autoImplicit false

/-! # Words of one keyword

All words of a definition lead to it, and none of them to another. A command therefore does not
depend on which of them it uses: neither the chain nor an error shows the word that was typed, only
the id of the definition (`Holds.meaning_of_mem_words`), and what is passed over is no word of a
definition. Words may be replaced by others of the same definitions anywhere in a command
(`compile_synonyms`), for instance all of them by the ids. -/

namespace CueScript

variable {α : Type}

namespace Registry

/-- One token may stand for the other: it is the same token, or both are words of one
    definition. -/
def Synonyms (r : Registry α) (token token' : String) : Prop :=
  token' = token ∨ ∃ d ∈ r.definitions, token ∈ d.words ∧ token' ∈ d.words

/-- The id of the definition that a word names; any other token as it is. -/
def idOf (r : Registry α) (token : String) : String :=
  match r.resolve? token with
  | some e => e.id
  | none => token

namespace Holds

variable {r : Registry α} {ds : List (Definition α)}

theorem synonyms_idOf (h : Holds r ds) (token : String) : r.Synonyms token (r.idOf token) := by
  unfold idOf
  rcases htoken : r.resolve? token with _ | e
  · exact Or.inl rfl
  · obtain ⟨d, hd, hword, rfl⟩ := h.resolve?_eq_some_iff.1 htoken
    rw [← h.definitions_eq] at hd
    exact Or.inr ⟨d, hd, hword, List.mem_cons_self⟩

theorem alike_of_synonyms (h : Holds r ds) {token token' : String} (hs : r.Synonyms token token') :
    Alike r r token token' := by
  rcases hs with rfl | ⟨d, hd, hword, hword'⟩
  · exact ⟨rfl, fun _ => rfl⟩
  · rw [h.definitions_eq] at hd
    have hmeaning := h.meaning_of_mem_words hd hword
    refine ⟨?_, fun hfiller => ?_⟩
    · rw [h.meaning_of_mem_words hd hword', hmeaning]
    · -- A word of a definition means something.
      rw [isFiller_iff, hmeaning] at hfiller
      cases hfiller

end Holds

/-- **Words of one keyword are interchangeable.** Whatever was registered and refused before, every
    word of a definition means its keyword, or the value with its id. Replace any words of a command
    by other words of the same definitions: it compiles to the same command, or fails with the same
    error, and the same words are passed over and warned of. In particular each word may be replaced
    by the id of its definition. -/
theorem compile_synonyms (calls : List (Registration α)) :
    let r := (history calls).2
    (∀ d ∈ r.definitions, ∀ word ∈ d.words, r.meaning word
        = .ok (some (if d.kind.isValue then .value (.word d.kind d.id) else .keyword d)))
      ∧ (∀ tokens tokens', List.Forall₂ r.Synonyms tokens tokens' →
        r.compile tokens' = r.compile tokens ∧ r.fillers tokens' = r.fillers tokens
          ∧ ∀ policy, r.compileUnder policy tokens' = r.compileUnder policy tokens)
      ∧ ∀ tokens, r.compile (tokens.map r.idOf) = r.compile tokens := by
  intro r
  have h : Holds r (history calls).1 := holds_history calls
  refine ⟨fun d hd word hword => ?_, fun tokens tokens' hreplaced => ?_, fun tokens => ?_⟩
  · rw [h.definitions_eq] at hd
    exact h.meaning_of_mem_words hd hword
  · have halike : List.Forall₂ (Alike r r) tokens tokens' :=
      hreplaced.imp fun _ _ hs => h.alike_of_synonyms hs
    exact ⟨compile_congr halike, fillers_congr halike, compileUnder_congr halike⟩
  · have halike : List.Forall₂ (Alike r r) tokens (tokens.map r.idOf) := by
      rw [List.forall₂_map_right_iff, List.forall₂_same]
      exact fun token _ => h.alike_of_synonyms (h.synonyms_idOf token)
    exact compile_congr halike

/-- Two aliases are replaced by other words of their definitions. -/
theorem compile_synonyms_make_round :
    let calls : List (Registration Unit) :=
      [.draft { kind := some .function, words := ["create", "make", "draw"],
                required := some [.value .shape], handler := some ⟨1, ()⟩ },
       .draft { kind := some (.value .shape), words := ["circle", "round"] }]
    let r := (history calls).2
    List.Forall₂ r.Synonyms ["make", "a", "round"] ["draw", "a", "circle"]
      ∧ r.compile ["draw", "a", "circle"] = r.compile ["make", "a", "round"]
      ∧ r.compile ["create", "a", "circle"] = r.compile ["make", "a", "round"]
      ∧ (r.compile ["make", "a", "round"]).result.toOption.map Command.skipped = some ["a"] := by
  intro calls r
  have hsynonyms : List.Forall₂ r.Synonyms ["make", "a", "round"] ["draw", "a", "circle"] := by
    refine .cons (.inr ?_) (.cons (.inl rfl) (.cons (.inr ?_) .nil))
    · exact ⟨_, List.mem_cons_self, by decide, by decide⟩
    · exact ⟨_, List.mem_cons_of_mem _ List.mem_cons_self, by decide, by decide⟩
  obtain ⟨-, hreplace, hid⟩ := compile_synonyms calls
  exact ⟨hsynonyms, (hreplace _ _ hsynonyms).1, hid ["make", "a", "round"], rfl⟩

end Registry

end CueScript

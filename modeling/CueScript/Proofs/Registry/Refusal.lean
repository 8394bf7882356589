import CueScript.Proofs.Registry.History

set_option autoImplicit false

/-! # Which drafts are refused, and why

Admission is a walk through checks with early exits. Here it is a rule: `Registry.Admits` says what
a draft has to be, field by field, and `Registry.Refuses` which error goes with the first condition
that fails. `register_exact` says that both are exact, and that a refusal leaves everything as it
was. -/

namespace CueScript

variable {α : Type}

/-! ## What a draft has to be -/

namespace Draft

/-- A single word: not empty, and without blanks. -/
def IsSingle (word : String) : Prop := word ≠ "" ∧ ∀ c ∈ word.toList, Text.isBlank c = false

/-- The draft has none of the fields that only functions have. -/
structure Plain (d : Draft α) : Prop where
  handler : d.handler = none
  required : d.required = none
  optional : d.optional = []
  produces : d.produces = none

/-- The draft has none of the fields that only events have. -/
structure Untargeted (d : Draft α) : Prop where
  target : d.target = none
  namedElement : d.namedElement = false

/-- The draft has a handler for its slots, and its slots and its product are for values. -/
structure Callable (d : Draft α) : Prop where
  handler : ∃ h, d.handler = some h ∧ h.arity = (d.required.getD []).length + d.optional.length
  required : ∀ k ∈ d.required.getD [], k.isValue = true
  optional : ∀ k ∈ d.optional, k.isValue = true
  produces : ∀ k ∈ d.produces, k.isValue = true

/-- The fields of the draft fit the kind. An event has a target or names an element, never both. -/
def Fits (d : Draft α) : Kind → Prop
  | .function => d.Callable ∧ d.Untargeted
  | .event => d.Plain ∧ (d.target.isSome = true ↔ d.namedElement = false)
  | .loop => False
  | .conditional => False
  | .value _ => d.Plain ∧ d.Untargeted

end Draft

/-- The words are new, and different from each other. -/
structure Registry.IsNew (r : Registry α) (words : List String) : Prop where
  unknown : ∀ w ∈ words, r.resolve? w = none
  distinct : words.Nodup

/-- The draft has a kind, words that are single and new, and fields that fit the kind. -/
structure Registry.Admits (r : Registry α) (d : Draft α) : Prop where
  kind : ∃ kind, d.kind = some kind ∧ d.Fits kind
  nonempty : d.words ≠ []
  single : ∀ w ∈ d.words, Draft.IsSingle w
  new : r.IsNew d.words

/-- The error for the first condition that a draft does not meet: it has a kind; it has words; they
    are single; they are new; the fields fit. A word at fault and a word that is taken are the first
    of that sort. -/
inductive Registry.Refuses (r : Registry α) (d : Draft α) : RegistrationError → Prop where
  | missingKind (hkind : d.kind = none) : r.Refuses d (.missingKind d.words)
  | noWords {kind : Kind} (hkind : d.kind = some kind) (hwords : d.words = []) :
      r.Refuses d (.noWords kind)
  | notSingle {kind : Kind} {before after : List String} {word : String} {fault : DefinitionFault}
      (hkind : d.kind = some kind) (hwords : d.words = before ++ word :: after)
      (hbefore : ∀ w ∈ before, Draft.IsSingle w) (hword : ¬ Draft.IsSingle word)
      (hfault : fault = .blankWord ∨ fault = .spacedWord word) :
      r.Refuses d (.invalid d.name fault)
  | taken {kind : Kind} {before after : List String} {word owner : String}
      (hkind : d.kind = some kind) (hsingle : ∀ w ∈ d.words, Draft.IsSingle w)
      (hwords : d.words = before ++ word :: after) (hbefore : r.IsNew before)
      (howner : (∃ e, r.resolve? word = some e ∧ owner = e.id)
        ∨ r.resolve? word = none ∧ word ∈ before ∧ owner = d.name) :
      r.Refuses d (.duplicateKeyword word owner)
  | unsupported {kind : Kind} (hkind : d.kind = some kind) (hwords : d.words ≠ [])
      (hsingle : ∀ w ∈ d.words, Draft.IsSingle w) (hnew : r.IsNew d.words)
      (hreserved : kind = .loop ∨ kind = .conditional) :
      r.Refuses d (.unsupportedKind kind.label)
  | unfit {kind : Kind} {fault : DefinitionFault} (hkind : d.kind = some kind)
      (hwords : d.words ≠ []) (hsingle : ∀ w ∈ d.words, Draft.IsSingle w) (hnew : r.IsNew d.words)
      (hreserved : kind ≠ .loop ∧ kind ≠ .conditional) (hfields : ¬ d.Fits kind) :
      r.Refuses d (.invalid d.name fault)

/-! ## The fields -/

namespace Draft

variable {d : Draft α}

theorem hasTarget_eq_false_iff : d.hasTarget = false ↔ d.Untargeted := by
  rw [hasTarget, Bool.or_eq_false_iff, Option.isSome_eq_false_iff, Option.isNone_iff_eq_none]
  exact ⟨fun h => ⟨h.1, h.2⟩, fun h => ⟨h.1, h.2⟩⟩

theorem functionField?_eq_none_iff : d.functionField? = none ↔ d.Plain := by
  constructor
  · intro h
    unfold functionField? at h
    split_ifs at h with hhandler hrequired hoptional hproduces
    exact ⟨by simpa using hhandler, by simpa using hrequired, by simpa using hoptional,
      by simpa using hproduces⟩
  · intro h
    simp [functionField?, h.handler, h.required, h.optional, h.produces]

theorem exists_value_of_isValue {k : Kind} (h : k.isValue = true) : ∃ v, k = .value v := by
  cases k with
  | value v => exact ⟨v, rfl⟩
  | _ => cases h

theorem exists_map_value {ks : List Kind} (h : ∀ k ∈ ks, k.isValue = true) :
    ∃ vs : List ValueKind, ks = vs.map Kind.value := by
  induction ks with
  | nil => exact ⟨[], rfl⟩
  | cons k ks ih =>
    rw [List.forall_mem_cons] at h
    obtain ⟨v, rfl⟩ := exists_value_of_isValue h.1
    obtain ⟨vs, rfl⟩ := ih h.2
    exact ⟨v :: vs, rfl⟩

theorem exists_functionRole_iff :
    (∃ role, d.functionRole = .ok role) ↔ d.Callable ∧ d.Untargeted := by
  simp only [functionRole_eq_ok_iff, hasTarget_eq_false_iff]
  constructor
  · rintro ⟨role, huntargeted, hhandler, hrequired, hoptional, hproduces, harity⟩
    refine ⟨⟨⟨role.handler, hhandler, ?_⟩, ?_, ?_, ?_⟩, huntargeted⟩
    · rw [harity, hrequired, hoptional, List.length_map, List.length_map]
    · simp [hrequired, Kind.isValue, Kind.valueKind?]
    · simp [hoptional, Kind.isValue, Kind.valueKind?]
    · simp [hproduces, Kind.isValue, Kind.valueKind?]
  · rintro ⟨⟨⟨handler, hhandler, harity⟩, hrequired, hoptional, hproduces⟩, huntargeted⟩
    obtain ⟨required, hrequired⟩ := exists_map_value hrequired
    obtain ⟨optional, hoptional⟩ := exists_map_value hoptional
    obtain ⟨produces, hproduces⟩ : ∃ v : Option ValueKind, d.produces = v.map Kind.value := by
      cases h : d.produces with
      | none => exact ⟨none, rfl⟩
      | some k =>
        obtain ⟨v, rfl⟩ := exists_value_of_isValue (hproduces k h)
        exact ⟨some v, rfl⟩
    refine ⟨⟨required, optional, produces, handler⟩, huntargeted, hhandler, hrequired, hoptional,
      hproduces, ?_⟩
    rw [harity, hrequired, hoptional, List.length_map, List.length_map]

theorem exists_eventRole_iff :
    (∃ role, d.eventRole = .ok role)
      ↔ d.Plain ∧ (d.target.isSome = true ↔ d.namedElement = false) := by
  rw [← functionField?_eq_none_iff, eventRole]
  cases d.functionField? with
  | some field => simp
  | none => cases d.target <;> cases d.namedElement <;> simp

theorem literalFault?_eq_none_iff : d.literalFault? = none ↔ d.Plain ∧ d.Untargeted := by
  rw [← functionField?_eq_none_iff, ← hasTarget_eq_false_iff, literalFault?]
  cases d.functionField? with
  | some field => simp
  | none => cases d.hasTarget <;> simp

/-- A draft has a role exactly if its fields fit the kind. -/
theorem exists_role_iff {kind : Kind} : (∃ role, d.role kind = .ok role) ↔ d.Fits kind := by
  cases kind with
  | function =>
    rw [Fits, ← exists_functionRole_iff]
    simp [role, mapError_eq_ok_iff, map_eq_ok_iff]
  | event =>
    rw [Fits, ← exists_eventRole_iff]
    simp [role, mapError_eq_ok_iff, map_eq_ok_iff]
  | loop => simp [role, Fits]
  | conditional => simp [role, Fits]
  | value v =>
    rw [Fits, ← literalFault?_eq_none_iff, role]
    cases d.literalFault? <;> simp

/-- Loops and conditionals are not supported; other fields that do not fit make a draft invalid. -/
theorem role_error_cases {kind : Kind} {e : RegistrationError} (h : d.role kind = .error e) :
    ((kind = .loop ∨ kind = .conditional) ∧ e = .unsupportedKind kind.label)
      ∨ (kind ≠ .loop ∧ kind ≠ .conditional) ∧ ∃ fault, e = .invalid d.name fault := by
  cases kind with
  | function =>
    rw [role, mapError_eq_error_iff] at h
    obtain ⟨fault, -, rfl⟩ := h
    exact .inr ⟨by simp, fault, rfl⟩
  | event =>
    rw [role, mapError_eq_error_iff] at h
    obtain ⟨fault, -, rfl⟩ := h
    exact .inr ⟨by simp, fault, rfl⟩
  | loop =>
    cases h
    exact .inl ⟨.inl rfl, rfl⟩
  | conditional =>
    cases h
    exact .inl ⟨.inr rfl, rfl⟩
  | value v =>
    rw [role] at h
    cases hfault : d.literalFault? with
    | none =>
      rw [hfault] at h
      cases h
    | some fault =>
      rw [hfault] at h
      cases h
      exact .inr ⟨by simp, fault, rfl⟩

/-- What is wrong with a word that is not single. -/
theorem fault_of_wordFault? {word : String} {fault : DefinitionFault}
    (h : wordFault? word = some fault) : fault = .blankWord ∨ fault = .spacedWord word := by
  unfold wordFault? at h
  split at h
  · cases h
    exact .inl rfl
  · split at h
    · cases h
      exact .inr rfl
    · cases h

end Draft

/-! ## The words -/

namespace Registry

/-- The word that is taken is the first: those before it are new and different. -/
theorem duplicate?_eq_some {r : Registry α} {owner : String} {seen ws : List String}
    {e : RegistrationError} (h : r.duplicate? owner seen ws = some e) :
    ∃ before word after, ws = before ++ word :: after
      ∧ r.duplicate? owner seen before = none
      ∧ ∃ o, e = .duplicateKeyword word o
        ∧ ((∃ entry, r.resolve? word = some entry ∧ o = entry.id)
          ∨ r.resolve? word = none ∧ (word ∈ seen ∨ word ∈ before) ∧ o = owner) := by
  induction ws generalizing seen with
  | nil => cases h
  | cons w ws ih =>
    rw [duplicate?] at h
    split at h
    · next entry hw =>
      cases h
      exact ⟨[], w, ws, rfl, rfl, entry.id, rfl, .inl ⟨entry, hw, rfl⟩⟩
    · next hw =>
      split at h
      · next hseen =>
        cases h
        exact ⟨[], w, ws, rfl, rfl, owner, rfl, .inr ⟨hw, .inl hseen, rfl⟩⟩
      · next hseen =>
        obtain ⟨before, word, after, rfl, hbefore, o, rfl, howner⟩ := ih h
        refine ⟨w :: before, word, after, rfl, ?_, o, rfl, ?_⟩
        · rw [duplicate?, hw]
          simpa [hseen] using hbefore
        · refine howner.imp_right ?_
          rintro ⟨hword, hmem, ho⟩
          refine ⟨hword, ?_, ho⟩
          simp only [List.mem_cons] at hmem ⊢
          tauto

theorem duplicate?_nil_eq_none_iff {r : Registry α} {owner : String} {ws : List String} :
    r.duplicate? owner [] ws = none ↔ r.IsNew ws := by
  rw [duplicate?_eq_none_iff]
  exact ⟨fun h => ⟨fun w hw => (h.1 w hw).1, h.2⟩,
    fun h => ⟨fun w hw => ⟨h.unknown w hw, List.not_mem_nil⟩, h.distinct⟩⟩

theorem findSome?_wordFault?_eq_none_iff {ws : List String} :
    ws.findSome? Draft.wordFault? = none ↔ ∀ w ∈ ws, Draft.IsSingle w := by
  simp only [List.findSome?_eq_none_iff, Draft.wordFault?_eq_none_iff, Draft.IsSingle]

/-! ## The whole check -/

/-- A draft is accepted exactly if it meets every condition. -/
theorem exists_accept_iff {r : Registry α} {draft : Draft α} :
    (∃ d, r.accept draft = .ok d) ↔ r.Admits draft := by
  simp only [accept_eq_ok_iff, findSome?_wordFault?_eq_none_iff, duplicate?_nil_eq_none_iff]
  constructor
  · rintro ⟨d, hwords, hsingle, hnew, kind, hkind, hrole⟩
    exact ⟨⟨kind, hkind, Draft.exists_role_iff.1 ⟨_, hrole⟩⟩, by simp [hwords, Definition.words],
      hsingle, hnew⟩
  · rintro ⟨⟨kind, hkind, hfits⟩, hnonempty, hsingle, hnew⟩
    obtain ⟨role, hrole⟩ := Draft.exists_role_iff.2 hfits
    obtain ⟨id, aliases, hwords⟩ := List.exists_cons_of_ne_nil hnonempty
    exact ⟨⟨id, aliases, role⟩, hwords, hsingle, hnew, kind, hkind, hrole⟩

/-- The error of a draft that is not accepted is that of the first condition that fails. -/
theorem refuses_of_accept {r : Registry α} {draft : Draft α} {e : RegistrationError}
    (h : r.accept draft = .error e) : r.Refuses draft e := by
  unfold accept at h
  split at h
  · next hkind =>
    cases h
    exact .missingKind hkind
  · next kind hkind hwords =>
    cases h
    exact .noWords hkind hwords
  · next kind id aliases hkind hwords =>
    have hname : id = draft.name := by simp [Draft.name, hwords]
    rw [← hwords, hname] at h
    split at h
    · next hfault =>
      cases h
      obtain ⟨before, word, after, hsplit, hword, hbefore⟩ := List.findSome?_eq_some_iff.1 hfault
      refine .notSingle hkind hsplit (fun w hw => Draft.wordFault?_eq_none_iff.1 (hbefore w hw))
        (fun hsingle => ?_) (Draft.fault_of_wordFault? hword)
      rw [Draft.wordFault?_eq_none_iff.2 hsingle] at hword
      cases hword
    · next error hfault hdup =>
      cases h
      obtain ⟨before, word, after, hsplit, hbefore, owner, rfl, howner⟩ := duplicate?_eq_some hdup
      refine .taken hkind (findSome?_wordFault?_eq_none_iff.1 hfault) hsplit
        (duplicate?_nil_eq_none_iff.1 hbefore) ?_
      simpa using howner
    · next hfault hdup =>
      rw [map_eq_error_iff] at h
      have hsingle := findSome?_wordFault?_eq_none_iff.1 hfault
      have hnew := duplicate?_nil_eq_none_iff.1 hdup
      have hnonempty : draft.words ≠ [] := by simp [hwords]
      obtain ⟨hreserved, rfl⟩ | ⟨hreserved, fault, rfl⟩ := Draft.role_error_cases h
      · exact .unsupported hkind hnonempty hsingle hnew hreserved
      · refine .unfit hkind hnonempty hsingle hnew hreserved fun hfits => ?_
        obtain ⟨role, hrole⟩ := Draft.exists_role_iff.2 hfits
        rw [hrole] at h
        cases h

theorem growAll_concat (ds : List (Definition α)) (r : Registry α)
    (calls : List (Registration α)) (c : Registration α) :
    growAll ds r (calls ++ [c])
      = ((growAll ds r calls).1 ++ ((growAll ds r calls).2.grow c).1,
        ((growAll ds r calls).2.grow c).2) := by
  induction calls generalizing ds r with
  | nil => rfl
  | cons c' calls ih => exact ih _ _

/-- A draft that is refused adds nothing to the history of a registry. -/
theorem history_concat_of_refused {calls : List (Registration α)} {draft : Draft α}
    {e : RegistrationError} (h : (history calls).2.register draft = .error e) :
    history (calls ++ [.draft draft]) = history calls := by
  have hgrow : (history calls).2.grow (.draft draft) = ([], (history calls).2) := by
    rw [grow, h]
  rw [history, growAll_concat, ← history, hgrow, List.append_nil]

/-- **The exact rule of admission.** Take any vocabulary, whatever was registered and refused
    before, and any draft. The draft is registered exactly if it has a kind, its words are single,
    new and different, and its fields fit the kind. If it is refused, definitions and registry stay
    as they were, and the error is that of the first of these conditions that fails. A word that is
    taken is named with its owner, and is the first such word of the draft. -/
theorem register_exact (calls : List (Registration α)) (draft : Draft α) :
    let r := (history calls).2
    ((∃ d r', r.register draft = .ok (d, r')) ↔ r.Admits draft)
      ∧ ∀ e, r.register draft = .error e →
        history (calls ++ [.draft draft]) = history calls ∧ r.Refuses draft e := by
  intro r
  constructor
  · rw [← exists_accept_iff]
    simp [register_eq_ok_iff]
  · intro e h
    exact ⟨history_concat_of_refused h, refuses_of_accept (map_eq_error_iff.1 h)⟩

/-- A function whose second word is an alias of another keyword is refused, although its third word
    repeats the first and its handler is missing. The event beside it is registered. -/
theorem register_exact_wink_click :
    let calls : List (Registration Unit) :=
      [.draft { kind := some (.value .color), words := ["red", "crimson"] }]
    let r := (history calls).2
    let wink : Draft Unit := { kind := some .function, words := ["wink", "crimson", "wink"] }
    let click : Draft Unit := { kind := some .event, words := ["click"], namedElement := true }
    (r.register wink = .error (.duplicateKeyword "crimson" "red")
        ∧ history (calls ++ [.draft wink]) = history calls
        ∧ r.Refuses wink (.duplicateKeyword "crimson" "red"))
      ∧ r.Admits click ∧ ∃ d r', r.register click = .ok (d, r') := by
  intro calls r wink click
  have hwink : r.register wink = .error (.duplicateKeyword "crimson" "red") := rfl
  have hclick : r.Admits click :=
    ⟨⟨.event, rfl, ⟨rfl, rfl, rfl, rfl⟩, by decide⟩, by decide,
      findSome?_wordFault?_eq_none_iff.1 rfl, List.forall_mem_singleton.2 rfl, by decide⟩
  exact ⟨⟨hwink, (register_exact calls wink).2 _ hwink⟩, hclick,
    (register_exact calls click).1.2 hclick⟩

end Registry

end CueScript

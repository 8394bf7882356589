import CueScript.Proofs.Command.Filling
import CueScript.Proofs.Registry.History

set_option autoImplicit false

/-! # Reading tokens

What the tokens of a command mean over a registry that holds some definitions, and the rule by which
everything about reading is proved: what each kind of token keeps of the open nodes, the whole
reading keeps (`readInto_keeps`). -/

namespace CueScript

variable {α : Type}

/-! ## Meanings -/

/-- Is this the kind of a value that some slot takes? -/
def Value.IsTyped (v : Value) : Prop := ∃ kind : ValueKind, v.kind = .value kind

/-- Texts, dimensions and colors have kinds of their own. A value of any other kind is a word. -/
theorem Value.eq_word_of_kind {v : Value} {kind : ValueKind} (h : v.kind = .value kind)
    (hkind : kind ∉ [.string, .dimension, .color]) : ∃ w, v = .word (.value kind) w := by
  cases v with
  | word kind' w => exact ⟨w, by rw [← show kind' = .value kind from h]⟩
  | _ =>
    cases h
    simp at hkind

namespace Registry

theorem isTyped_of_typed? {r : Registry α} {kind : ValueKind} {raw : List Char} {v : Value}
    (h : r.typed? kind raw = some v) : v.kind = .value kind := by
  cases kind with
  | string =>
    cases h
    rfl
  | color =>
    simp only [typed?] at h
    split at h
    · obtain ⟨c, -, rfl⟩ := Option.map_eq_some_iff.1 h
      rfl
    · cases h
      rfl
  | dimension =>
    obtain ⟨d, -, rfl⟩ := Option.map_eq_some_iff.1 h
    rfl
  | _ =>
    cases h
    rfl

theorem isTyped_of_assigned? {r : Registry α} {cs : List Char} {v : Value}
    (h : r.assigned? cs = some v) : v.IsTyped := by
  obtain ⟨⟨name, raw⟩, -, h⟩ := Option.bind_eq_some_iff.1 h
  obtain ⟨kind, -, h⟩ := Option.bind_eq_some_iff.1 h
  split at h
  · cases h
  · exact ⟨kind, isTyped_of_typed? h⟩

/-- A literal is a value that some slot takes. -/
theorem isTyped_of_literal? {r : Registry α} {token : String} {v : Value}
    (h : r.literal? token = some v) : v.IsTyped := by
  simp only [literal?] at h
  split at h
  · cases h
    exact ⟨.string, rfl⟩
  · split at h
    · obtain ⟨c, -, rfl⟩ := Option.map_eq_some_iff.1 h
      exact ⟨.color, rfl⟩
    · rcases Option.or_eq_some_iff.1 h with h | ⟨-, h⟩
      · obtain ⟨d, -, rfl⟩ := Option.map_eq_some_iff.1 h
        exact ⟨.dimension, rfl⟩
      · exact isTyped_of_assigned? h

/-- The definition of the keyword that a token is. -/
def keyword? (r : Registry α) (token : String) : Option (Definition α) :=
  match r.meaning token with
  | .ok (some (.keyword d)) => some d
  | _ => none

/-- The value that a token means. -/
def value? (r : Registry α) (token : String) : Option Value :=
  match r.meaning token with
  | .ok (some (.value v)) => some v
  | _ => none

theorem value?_eq_some_iff {r : Registry α} {token : String} {v : Value} :
    r.value? token = some v ↔ r.meaning token = .ok (some (.value v)) := by
  unfold value?
  split
  · next w hw => simp [hw]
  · next hw => simpa using hw v

/-- A keyword is a definition that the registry holds, and opens a part of a command. -/
theorem Holds.of_meaning_keyword {r : Registry α} {ds : List (Definition α)} (h : Holds r ds)
    {token : String} {d : Definition α} (hm : r.meaning token = .ok (some (.keyword d))) :
    d ∈ ds ∧ d.kind.isValue = false := by
  unfold meaning at hm
  split at hm
  · cases hl : r.literal? token <;> simp [hl] at hm
  · next e he =>
    obtain ⟨d', hd', heq⟩ := map_eq_ok_iff.1 hm
    obtain ⟨hmem, -, hkind⟩ := h.definitionFor_eq_ok_iff.1 hd'
    split at heq
    · cases heq
    · next hvalue =>
      cases heq
      exact ⟨hmem, by simpa [hkind] using hvalue⟩

/-- Every word of a definition means the same: the keyword, or the value with its id. -/
theorem Holds.meaning_of_mem_words {r : Registry α} {ds : List (Definition α)} (h : Holds r ds)
    {d : Definition α} (hd : d ∈ ds) {word : String} (hword : word ∈ d.words) :
    r.meaning word
      = .ok (some (if d.kind.isValue then .value (.word d.kind d.id) else .keyword d)) := by
  have hresolve := h.resolve?_eq_some_iff.2 ⟨d, hd, hword, rfl⟩
  simp only [meaning, hresolve, h.definitionFor_self hd, Except.map]

/-- Every token means something or nothing: an entry of the index has its definition. -/
theorem Holds.exists_meaning {r : Registry α} {ds : List (Definition α)} (h : Holds r ds)
    (token : String) : ∃ meaning, r.meaning token = .ok meaning := by
  unfold meaning
  split
  · exact ⟨_, rfl⟩
  · next e he =>
    obtain ⟨d, hd, -, rfl⟩ := h.resolve?_eq_some_iff.1 he
    rw [h.definitionFor_self hd]
    exact ⟨_, rfl⟩

/-- A value that a token means is one that some slot takes. -/
theorem isTyped_of_meaning {r : Registry α} {token : String} {v : Value}
    (hm : r.meaning token = .ok (some (.value v))) : v.IsTyped := by
  unfold meaning at hm
  split at hm
  · obtain ⟨v', hv', heq⟩ := Option.map_eq_some_iff.1 (Except.ok.inj hm)
    cases heq
    exact isTyped_of_literal? hv'
  · next e he =>
    obtain ⟨d, -, heq⟩ := map_eq_ok_iff.1 hm
    split at heq
    · next hvalue =>
      cases heq
      obtain ⟨kind, hkind⟩ := Option.isSome_iff_exists.1 hvalue
      refine ⟨kind, ?_⟩
      cases hk : e.kind <;> simp_all [Value.kind, Kind.valueKind?]
    · cases heq

/-! ## Reading -/

/-- What every token keeps, reading more tokens keeps. -/
theorem readInto_keeps_from {r : Registry α} {P : List String → List (Node α) → Prop}
    {read tokens passed : List String} {opened opened' : List (Node α)} (start : P read opened)
    (filler : ∀ read opened token, P read opened → r.meaning token = .ok none →
      P (read ++ [token]) opened)
    (keyword : ∀ read opened token d, P read opened → r.meaning token = .ok (some (.keyword d)) →
      P (read ++ [token]) (.ofDefinition d :: opened))
    (value : ∀ read opened token v opened', P read opened →
      r.meaning token = .ok (some (.value v)) → Chain.bind? v opened = some opened' →
      P (read ++ [token]) opened')
    (h : r.readInto opened tokens = (passed, .ok opened')) : P (read ++ tokens) opened' := by
  -- Each token that is read moves over to `read`, with what it does to the open nodes.
  induction tokens generalizing read opened passed with
  | nil =>
    obtain ⟨-, heq⟩ := Prod.mk.inj h
    cases heq
    simpa using start
  | cons token rest ih =>
    rw [List.append_cons]
    unfold readInto at h
    split at h
    · cases h
    · next hm =>
      obtain ⟨-, hresult⟩ := Prod.mk.inj h
      exact ih (filler _ _ _ start hm) (Prod.ext rfl hresult)
    · next d hm => exact ih (keyword _ _ _ d start hm) h
    · next v hm =>
      split at h
      · next opened'' hbind => exact ih (value _ _ _ v _ start hm hbind) h
      · cases h

/-- **Reading keeps what every token keeps.** `P` speaks of the tokens that were read and of the
    nodes that they opened. -/
theorem readInto_keeps {r : Registry α} {P : List String → List (Node α) → Prop}
    {tokens passed : List String} {opened : List (Node α)} (start : P [] [])
    (filler : ∀ read opened token, P read opened → r.meaning token = .ok none →
      P (read ++ [token]) opened)
    (keyword : ∀ read opened token d, P read opened → r.meaning token = .ok (some (.keyword d)) →
      P (read ++ [token]) (.ofDefinition d :: opened))
    (value : ∀ read opened token v opened', P read opened →
      r.meaning token = .ok (some (.value v)) → Chain.bind? v opened = some opened' →
      P (read ++ [token]) opened')
    (h : r.readInto [] tokens = (passed, .ok opened)) : P tokens opened :=
  readInto_keeps_from start filler keyword value h

/-- Reading a value is binding it. -/
theorem readInto_value {r : Registry α} {token : String} {v : Value} (h : r.value? token = some v)
    (opened : List (Node α)) (rest : List String) :
    r.readInto opened (token :: rest)
      = match Chain.bind? v opened with
        | some opened' => r.readInto opened' rest
        | none => ([], .error (.unexpected v.display v.kind)) := by
  rcases hbind : Chain.bind? v opened with _ | opened' <;>
    simp only [readInto, value?_eq_some_iff.1 h, hbind]

/-- A value goes into the innermost node, if that has room for it. -/
theorem readInto_take {r : Registry α} {token : String} {v : Value} {n n' : Node α}
    (h : r.value? token = some v) (htake : n.take? v = some n') (outer : List (Node α))
    (rest : List String) :
    r.readInto (n :: outer) (token :: rest) = r.readInto (n' :: outer) rest := by
  simp [readInto_value h, Chain.bind?, htake]

/-- Reading a keyword opens a node. -/
theorem readInto_keyword {r : Registry α} {token : String} {d : Definition α}
    (h : r.meaning token = .ok (some (.keyword d))) (opened : List (Node α)) (rest : List String) :
    r.readInto opened (token :: rest) = r.readInto (.ofDefinition d :: opened) rest := by
  simp [readInto, h]

/-- Reading goes on where it was, unless it has failed. -/
theorem readInto_append (r : Registry α) (opened : List (Node α)) (read rest : List String) :
    r.readInto opened (read ++ rest)
      = match r.readInto opened read with
        | (passed, .error error) => (passed, .error error)
        | (passed, .ok opened') =>
          (passed ++ (r.readInto opened' rest).1, (r.readInto opened' rest).2) := by
  induction read generalizing opened with
  | nil => rfl
  | cons token read ih =>
    simp only [List.cons_append, readInto]
    cases r.meaning token with
    | error entry => rfl
    | ok meaning =>
      cases meaning with
      | none =>
        simp only [ih]
        obtain ⟨passed, result⟩ := r.readInto opened read
        cases result <;> rfl
      | some meaning =>
        cases meaning with
        | keyword d => exact ih _
        | value v =>
          dsimp only
          cases Chain.bind? v opened with
          | none => rfl
          | some opened' => exact ih opened'

/-- What reading passes over are the fillers. -/
theorem passed_of_readInto {r : Registry α} {tokens passed : List String}
    {opened opened' : List (Node α)} (h : r.readInto opened tokens = (passed, .ok opened')) :
    passed = r.fillers tokens := by
  induction tokens generalizing opened passed with
  | nil =>
    obtain ⟨rfl, -⟩ := Prod.mk.inj h
    rfl
  | cons token rest ih =>
    unfold readInto at h
    unfold fillers
    split at h
    · cases h
    · next hm =>
      obtain ⟨rfl, hresult⟩ := Prod.mk.inj h
      rw [List.filter_cons_of_pos (by simp [isFiller, hm])]
      exact congrArg (token :: ·) (ih (Prod.ext rfl hresult))
    · next d hm =>
      rw [List.filter_cons_of_neg (by simp [isFiller, hm])]
      exact ih h
    · next v hm =>
      rw [List.filter_cons_of_neg (by simp [isFiller, hm])]
      split at h
      · exact ih h
      · cases h

/-! ## Compiling -/

/-- Compiling is reading, closing the chain and finding no required slot empty. -/
theorem compile_eq_ok_iff {r : Registry α} {tokens : List String} {c : Command α} :
    (r.compile tokens).result = .ok c
      ↔ ∃ opened, r.readInto [] tokens = (c.skipped, .ok opened)
        ∧ c.chain = Chain.close opened ∧ Chain.incomplete? c.chain = none := by
  obtain ⟨chain, skipped⟩ := c
  simp only [compile]
  cases hread : r.readInto [] tokens with
  | mk passed result =>
    cases result with
    | error e =>
      simp [Except.bind]
    | ok opened =>
      simp only [Except.bind, finish, Prod.mk.injEq, Except.ok.injEq]
      constructor
      · intro h
        split at h
        · cases h
        · next hnone =>
          cases h
          exact ⟨opened, ⟨rfl, rfl⟩, rfl, hnone⟩
      · rintro ⟨opened', ⟨rfl, rfl⟩, rfl, hnone⟩
        rw [hnone]

end Registry

end CueScript

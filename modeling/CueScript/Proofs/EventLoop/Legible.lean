import CueScript.Proofs.Command.Places
import CueScript.Proofs.EventLoop.Firing
import CueScript.Proofs.Registry.Loading
import CueScript.Proofs.Registry.Refusal
import CueScript.Proofs.Script.NormalForm

set_option autoImplicit false

/-! # Legible bindings

A target is *legible* if reading its text gives it back. Not every target is: a host object may be
called ` ` or `element:`, as far as the type goes. But a catalog names targets by texts, which gives
legible ones, and an element that a command names is a single word: the id of a keyword, or what
stands behind the equals sign of a token without blanks. So whatever an event loop is asked to keep
for a compiled command is legible (`legible_of_compile`, `legible_of_request?`). -/

namespace CueScript

variable {α : Type}

/-- What a relation carries over from each element to its partner. -/
theorem forall_mem_of_forall₂ {β γ : Type} {R : β → γ → Prop} {P : β → Prop} {Q : γ → Prop}
    {bs : List β} {cs : List γ} (h : List.Forall₂ R bs cs) (hcarry : ∀ b c, R b c → P b → Q c)
    (hbs : ∀ b ∈ bs, P b) : ∀ c ∈ cs, Q c := by
  induction h with
  | nil => exact List.forall_mem_nil _
  | cons hbc _ ih =>
    rw [List.forall_mem_cons] at hbs ⊢
    exact ⟨hcarry _ _ hbc hbs.1, ih hbs.2⟩

/-! ## Targets -/

namespace Target

/-- Reading the text of the target gives the target. -/
def Legible (t : Target) : Prop := read t.text = .ok t

/-- What was read once can be read again. -/
theorem legible_of_read {s : String} {t : Target} (h : read s = .ok t) : t.Legible := by
  obtain ⟨name, hname⟩ : ∃ name, name = Text.trimBy Text.isBlank s.toList := ⟨_, rfl⟩
  have htrim : Text.trimBy Text.isBlank name = name := by
    rw [hname]
    exact Text.trimBy_eq_self (Text.head?_trimBy _ _) (Text.getLast?_trimBy _ _)
  -- The text of the target is the trimmed text that it was read from.
  have hagain : ∀ s', s'.toList = name → read s' = read s := by
    intro s' hs'
    simp only [read, hs', htrim, ← hname]
  have h' := h
  simp only [read, ← hname] at h'
  split at h'
  · cases h'
  · split at h'
    · cases h'
    · next rest _ hrest =>
      cases h'
      rw [Legible, hagain _ ?_, h]
      rw [text, String.toList_append, String.toList_ofList, Text.dropPrefix?_eq_some_iff.1 hrest]
    · cases h'
      exact (hagain _ String.toList_ofList).trans h

/-- An element with a single word for a name. -/
theorem legible_element {w : String} (h : Draft.IsSingle w) : (element w).Legible := by
  obtain ⟨hne, hfree⟩ := h
  have hw : w.toList ≠ [] := by simpa using hne
  have hlast : ∀ c ∈ (elementMark.toList ++ w.toList).getLast?, Text.isBlank c = false := by
    rw [List.getLast?_append, Option.or_of_isSome (List.getLast?_isSome.2 hw)]
    exact fun c hc => hfree c (List.mem_of_mem_getLast? hc)
  have hfirst : ∀ c ∈ (elementMark.toList ++ w.toList).head?, Text.isBlank c = false := by
    intro c hc
    cases hc
    decide
  have htext : (element w).text.toList = elementMark.toList ++ w.toList := String.toList_append
  have hrest : Text.dropPrefix? elementMark.toList (elementMark.toList ++ w.toList)
      = some w.toList := Text.dropPrefix?_eq_some_iff.2 rfl
  obtain ⟨c, cs, hcs⟩ := List.exists_cons_of_ne_nil hw
  simp only [Legible, read, htext, Text.trimBy_eq_self hfirst hlast, hrest]
  rw [hcs, ← hcs, String.ofList_toList]
  rfl

end Target

/-! ## Definitions -/

/-- The id is a single word, and the target of an event is legible. -/
structure Definition.Legible (d : Definition α) : Prop where
  id : Draft.IsSingle d.id
  target : ∀ t, d.role = .event (.fixed t) → t.Legible

theorem Draft.target_of_eventRole {draft : Draft α} {t : Target}
    (h : draft.eventRole = .ok (.fixed t)) : draft.target = some t := by
  unfold eventRole at h
  split at h
  · cases h
  · split at h
    · next htarget _ =>
      cases h
      exact htarget
    all_goals cases h

/-- What a draft with a legible target describes is legible. -/
theorem Draft.Describes.legible {draft : Draft α} {d : Definition α} (h : draft.Describes d)
    (htarget : ∀ t ∈ draft.target, t.Legible) : d.Legible where
  id := by
    have hsingle := Registry.findSome?_wordFault?_eq_none_iff.1 h.single
    rw [h.words] at hsingle
    exact hsingle d.id List.mem_cons_self
  target := by
    intro t ht
    obtain ⟨kind, -, hrole⟩ := h.role
    rw [ht] at hrole
    cases kind with
    | function =>
      rw [Draft.role, mapError_eq_ok_iff, map_eq_ok_iff] at hrole
      obtain ⟨role, -, heq⟩ := hrole
      cases heq
    | event =>
      rw [Draft.role, mapError_eq_ok_iff, map_eq_ok_iff] at hrole
      obtain ⟨role, hrole, heq⟩ := hrole
      cases heq
      exact htarget t (Draft.target_of_eventRole hrole)
    | loop => cases hrole
    | conditional => cases hrole
    | value v =>
      rw [Draft.role] at hrole
      split at hrole <;> cases hrole

/-- A catalog names targets by texts. -/
theorem Declaration.legible_of_draft {d : Declaration} {handlers : HandlerTable α}
    {draft : Draft α} (h : d.draft handlers = .ok draft) : ∀ t ∈ draft.target, t.Legible := by
  obtain ⟨kind, -, h⟩ := bind_eq_ok_iff.1 h
  rw [mapError_eq_ok_iff, draftOf] at h
  obtain ⟨handler, -, h⟩ := bind_eq_ok_iff.1 h
  obtain ⟨target, htarget, h⟩ := bind_eq_ok_iff.1 h
  obtain ⟨required, -, h⟩ := bind_eq_ok_iff.1 h
  obtain ⟨optional, -, h⟩ := bind_eq_ok_iff.1 h
  obtain ⟨produces, -, h⟩ := bind_eq_ok_iff.1 h
  cases h
  rintro t rfl
  cases hd : d.target with
  | none =>
    rw [hd] at htarget
    cases htarget
  | some text =>
    rw [hd, onPresent, map_eq_ok_iff] at htarget
    obtain ⟨t', ht', heq⟩ := htarget
    cases heq
    exact Target.legible_of_read (mapError_eq_ok_iff.1 ht')

/-! ## Words -/

/-- No kind has a name that begins with a quote. -/
theorem Kind.named?_quote (cs : List Char) : Kind.named? (String.ofList ('"' :: cs)) = none := by
  obtain ⟨rest, hrest⟩ : ∃ rest, (Text.lowercaseAscii
      (Text.trim (String.ofList ('"' :: cs)))).toList = '"' :: rest := by
    have htrim := Text.trimBy_append_cons (p := Text.isBlank) (c := '"') (by decide) [] cs
    rw [List.nil_append] at htrim
    refine ⟨(Text.dropRight Text.isBlank cs).map Char.toLower, ?_⟩
    simp only [Text.lowercaseAscii, Text.trim, String.toList_ofList, htrim]
    rfl
  have hother : ∀ name : String, name.toList.head? ≠ some '"' →
      Text.lowercaseAscii (Text.trim (String.ofList ('"' :: cs))) ≠ name := by
    rintro name hname rfl
    exact hname (by rw [hrest, List.head?_cons])
  have hslug : ∀ k ∈ Kind.all, k.slug.toList.head? ≠ some '"' := by decide
  simp only [named?]
  rw [if_neg (hother "if" (by decide)), List.find?_eq_none]
  exact fun k hk => by simpa using (hother k.slug (hslug k hk)).symm

namespace Registry

theorem word_of_typed? {r : Registry α} {kind : ValueKind} {raw : List Char} {k : Kind}
    {w : String} (h : r.typed? kind raw = some (.word k w)) :
    w = r.canonical (.value kind) (String.ofList raw) := by
  cases kind with
  | string => cases h
  | dimension =>
    obtain ⟨d, -, hd⟩ := Option.map_eq_some_iff.1 h
    cases hd
  | color =>
    simp only [typed?] at h
    split at h
    · obtain ⟨c, -, hc⟩ := Option.map_eq_some_iff.1 h
      cases hc
    · cases h
      rfl
  | _ =>
    cases h
    rfl

/-- A literal that is a word has the name of a kind before its equals sign, and after it the word,
    or another word of the same keyword. -/
theorem canonical_of_literal? {r : Registry α} {token : String} {k : Kind} {w : String}
    (h : r.literal? token = some (.word k w)) :
    ∃ name kind raw, token.toList = name ++ '=' :: raw ∧ raw ≠ []
      ∧ Kind.named? (String.ofList name) = some (.value kind)
      ∧ w = r.canonical (.value kind) (String.ofList raw) := by
  simp only [literal?] at h
  split at h
  · cases h
  · split at h
    · obtain ⟨c, -, hc⟩ := Option.map_eq_some_iff.1 h
      cases hc
    · rcases Option.or_eq_some_iff.1 h with h | ⟨-, h⟩
      · obtain ⟨d, -, hd⟩ := Option.map_eq_some_iff.1 h
        cases hd
      · obtain ⟨⟨name, raw⟩, hcut, h⟩ := Option.bind_eq_some_iff.1 h
        obtain ⟨kind, hkind, h⟩ := Option.bind_eq_some_iff.1 h
        obtain ⟨k', hname, hk'⟩ := Option.bind_eq_some_iff.1 hkind
        have hk : k' = .value kind := by
          cases k' with
          | value v => exact congrArg Kind.value (Option.some.inj hk')
          | _ => cases hk'
        subst hk
        split at h
        · cases h
        · next hraw =>
          refine ⟨name, kind, raw, (Text.cutAtFirst_eq_some_iff.1 hcut).1, by simpa using hraw,
            hname, ?_⟩
          exact word_of_typed? h

/-- What a token holds behind the name of a kind and an equals sign is a single word: a token with
    blanks in it begins with a quote. -/
theorem single_of_tagged {token : String}
    (htoken : Script.IsWord token.toList ∨ Script.IsQuotation token.toList) {name raw : List Char}
    {kind : Kind} (hlist : token.toList = name ++ '=' :: raw) (hraw : raw ≠ [])
    (hname : Kind.named? (String.ofList name) = some kind) :
    Draft.IsSingle (String.ofList raw) := by
  rcases htoken with hword | ⟨text, -, hquotation⟩
  · refine ⟨by simpa using hraw, fun c hc => hword.unbroken c ?_⟩
    rw [String.toList_ofList] at hc
    rw [hlist]
    exact List.mem_append_right _ (List.mem_cons_of_mem _ hc)
  · -- What stands before the equals sign would begin with the quote.
    have hhead : token.toList.head? = some '"' := by
      rcases hquotation with htext | htext <;> rw [htext] <;> rfl
    rw [hlist] at hhead
    cases name with
    | nil => simp at hhead
    | cons c cs =>
      obtain rfl : c = '"' := by simpa using hhead
      rw [Kind.named?_quote] at hname
      cases hname

variable {r : Registry α} {ds : List (Definition α)}

theorem Holds.single_of_resolve? (h : Holds r ds) (hds : ∀ d ∈ ds, d.Legible) {word : String}
    {e : Entry} (he : r.resolve? word = some e) : Draft.IsSingle e.id := by
  obtain ⟨d, hd, -, rfl⟩ := h.resolve?_eq_some_iff.1 he
  exact (hds d hd).id

theorem Holds.single_canonical (h : Holds r ds) (hds : ∀ d ∈ ds, d.Legible) {word : String}
    (hword : Draft.IsSingle word) (kind : Kind) : Draft.IsSingle (r.canonical kind word) := by
  unfold canonical
  split
  · next e he =>
    split
    · exact h.single_of_resolve? hds he
    · exact hword
  · exact hword

/-- A word that a token means is a single word. -/
theorem Holds.single_of_meaning (h : Holds r ds) (hds : ∀ d ∈ ds, d.Legible) {token : String}
    (htoken : Script.IsWord token.toList ∨ Script.IsQuotation token.toList) {kind : Kind}
    {w : String} (hm : r.meaning token = .ok (some (.value (.word kind w)))) :
    Draft.IsSingle w := by
  unfold meaning at hm
  split at hm
  · obtain ⟨v, hv, heq⟩ := Option.map_eq_some_iff.1 (Except.ok.inj hm)
    cases heq
    obtain ⟨name, kind, raw, hlist, hraw, hname, rfl⟩ := canonical_of_literal? hv
    exact h.single_canonical hds (single_of_tagged htoken hlist hraw hname) _
  · next e he =>
    obtain ⟨d, hd, heq⟩ := map_eq_ok_iff.1 hm
    split at heq
    · cases heq
      obtain ⟨hmem, -, -⟩ := h.definitionFor_eq_ok_iff.1 hd
      exact (hds d hmem).id
    · cases heq

end Registry

/-! ## Commands -/

/-- The definition of the node is legible, and the words in its slots are single. -/
structure Node.Legible (n : Node α) : Prop where
  definition : n.definition.Legible
  words : ∀ i kind w, n.value? i = some (.word kind w) → Draft.IsSingle w

/-- The name of the signal is a single word, the target is legible, and so is all that is run. -/
structure Binding.Legible (b : Binding α) : Prop where
  signal : Draft.IsSingle b.signal
  target : b.target.Legible
  body : ∀ n ∈ b.body, n.Legible

theorem Node.legible_of_take? {n n' : Node α} {v : Value} (h : n.Legible)
    (hv : ∀ kind w, v = .word kind w → Draft.IsSingle w) (hn : n.take? v = some n') :
    n'.Legible := by
  obtain ⟨before, s, after, hslots, -, -, rfl⟩ := Node.take?_eq_some_iff.1 hn
  refine ⟨h.definition, fun i kind w hw => ?_⟩
  rw [(n.refill_places (.value v) hslots).2 i] at hw
  split at hw
  · exact hv kind w (Option.some.inj hw)
  · exact h.words i kind w hw

theorem Node.SameValues.legible {n n' : Node α} (h : n.SameValues n') (hn : n.Legible) :
    n'.Legible where
  definition := by
    rw [h.definition]
    exact hn.definition
  words := fun i kind w hw => hn.words i kind w (by rwa [← h.values])

/-- **Commands are legible.** What the tokens of a command compile to over legible definitions has
    only single words in its slots. -/
theorem Registry.Holds.legible_of_compile {r : Registry α} {ds : List (Definition α)}
    (h : Holds r ds) (hds : ∀ d ∈ ds, d.Legible) {tokens : List String}
    (htokens : ∀ t ∈ tokens, Script.IsWord t.toList ∨ Script.IsQuotation t.toList)
    {c : Command α} (hc : (r.compile tokens).result = .ok c) : ∀ n ∈ c.chain, n.Legible := by
  obtain ⟨opened, hread, hchain, -⟩ := compile_eq_ok_iff.1 hc
  have hopened : ∀ n ∈ opened, n.Legible := by
    refine readInto_keeps (P := fun read opened =>
      (∀ t ∈ read, Script.IsWord t.toList ∨ Script.IsQuotation t.toList) →
        ∀ n ∈ opened, n.Legible) ?_ ?_ ?_ ?_ hread htokens
    · exact fun _ => List.forall_mem_nil _
    · exact fun read opened token hopened _ hread =>
        hopened fun t ht => hread t (List.mem_append_left _ ht)
    · intro read opened token d hopened hm hread
      have hd : d.Legible := hds d (h.of_meaning_keyword hm).1
      refine List.forall_mem_cons.2 ⟨⟨hd, fun i kind w hw => ?_⟩,
        hopened fun t ht => hread t (List.mem_append_left _ ht)⟩
      rw [Node.value?_ofDefinition] at hw
      cases hw
    · intro read opened token v opened' hopened hm hbind hread
      refine Chain.bind?_keeps hbind (fun n n' hn htake => ?_)
        (hopened fun t ht => hread t (List.mem_append_left _ ht))
      refine Node.legible_of_take? hn (fun kind w hv => ?_) htake
      subst hv
      exact h.single_of_meaning hds (hread token (by simp)) hm
  rw [hchain]
  exact forall_mem_of_forall₂ (Chain.sameValues_close opened) (fun _ _ => Node.SameValues.legible)
    (by simpa using hopened)

/-- What a legible chain asks a host to keep is legible. -/
theorem Chain.legible_of_request? {chain : Chain α} (h : ∀ n ∈ chain, n.Legible) {b : Binding α}
    (hb : chain.request? = some b) : b.Legible := by
  induction chain with
  | nil => cases hb
  | cons n inner ih =>
    rw [List.forall_mem_cons] at h
    cases hn : n.isEvent with
    | false =>
      rw [request?_function hn] at hb
      exact ih h.2 hb
    | true =>
      obtain ⟨role, hrole⟩ := Node.role_of_isEvent hn
      rw [request?_event hrole, Option.map_eq_some_iff] at hb
      obtain ⟨target, htarget, rfl⟩ := hb
      refine ⟨h.1.definition.id, ?_, h.2⟩
      cases role with
      | fixed t =>
        cases htarget
        exact h.1.definition.target _ hrole
      | namedElement =>
        simp only [Node.target?] at htarget
        split at htarget
        · next kind w hw =>
          cases htarget
          exact Target.legible_element (h.1.words 0 kind w hw)
        · cases htarget

end CueScript

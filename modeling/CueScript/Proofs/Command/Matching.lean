import CueScript.Proofs.Command.Places

set_option autoImplicit false

/-! # Values are matched to slots like brackets

Which value of a command goes where is told without the compiler. A value belongs to a keyword
before it, and passes over a keyword in between only if all slots of its kind are taken there; in
its own keyword it takes the first slot of its kind. `Matching` says this of an assignment of the
value tokens to the places of a chain. There is at most one (`Matching.unique`), and reading finds
it: each token keeps a matching (`matching_readInto`). So a compiled command holds exactly the
values of its tokens, each once and in its place (`matching_of_compile`). -/

namespace CueScript

variable {α : Type}

namespace Registry

/-- The value that the token at a position means. -/
def valueAt? (r : Registry α) (tokens : List String) (i : Nat) : Option Value :=
  tokens[i]?.bind r.value?

/-- The positions of the function and event keywords among the tokens. -/
def keywordPlaces (r : Registry α) (tokens : List String) : List Nat :=
  (List.range tokens.length).filter fun i => (tokens[i]?.bind r.keyword?).isSome

end Registry

/-- An assignment of value tokens to the places of the values in a chain, one to one, that keeps the
    discipline of a stack. The node at position `k` of the chain is that of the keyword at
    `keywordPlaces[k]`. -/
structure Matching (r : Registry α) (tokens : List String) (chain : Chain α)
    (m : Nat → Option Place) : Prop where
  -- It goes from the value tokens to the slots with a value, one to one.
  domain : ∀ i, (m i).isSome = (r.valueAt? tokens i).isSome
  injective : ∀ i i' p, m i = some p → m i' = some p → i = i'
  onto : ∀ p, (chain.valueAt? p).isSome = true → ∃ i, m i = some p
  -- A slot holds the value that its token means, and is of its kind.
  value : ∀ i p, m i = some p → chain.valueAt? p = r.valueAt? tokens i
  kind : ∀ i p v, m i = some p → r.valueAt? tokens i = some v →
    ∃ kind, chain.kindAt? p = some kind ∧ v.kind = .value kind
  -- The keyword of the node comes before the token.
  after : ∀ i p, m i = some p → ∃ place < i, (r.keywordPlaces tokens)[p.1]? = some place
  -- Each keyword between them has all its slots of the kind taken by earlier tokens.
  between : ∀ i p, m i = some p → ∀ k > p.1, ∀ place < i,
    (r.keywordPlaces tokens)[k]? = some place → ∀ j, chain.kindAt? (k, j) = chain.kindAt? p →
      ∃ i' < i, m i' = some (k, j)
  -- So are the slots of the kind that the node has before this one.
  gapless : ∀ i p, m i = some p → ∀ j < p.2, chain.kindAt? (p.1, j) = chain.kindAt? p →
    ∃ i' < i, m i' = some (p.1, j)

/-! ## There is at most one -/

namespace Matching

variable {r : Registry α} {tokens : List String} {chain : Chain α} {m m' : Nat → Option Place}

/-- Where two matchings agree on all earlier tokens, the place in the one is not further out than
    the place in the other, nor further on in the same node. -/
theorem not_beyond (h : Matching r tokens chain m) (h' : Matching r tokens chain m') {i : Nat}
    (hagree : ∀ i' < i, m i' = m' i') {p p' : Place} (hp : m i = some p) (hp' : m' i = some p') :
    ¬ (p.1 < p'.1 ∨ p.1 = p'.1 ∧ p'.2 < p.2) := by
  obtain ⟨v, hv⟩ := Option.isSome_iff_exists.1 (by rw [← h.domain, hp]; rfl)
  have hkind : chain.kindAt? p' = chain.kindAt? p := by
    obtain ⟨kind, hk, hvk⟩ := h.kind i p v hp hv
    obtain ⟨kind', hk', hvk'⟩ := h'.kind i p' v hp' hv
    rw [hk, hk', Kind.value.inj (hvk.symm.trans hvk')]
  -- The other place would already be taken by an earlier token.
  have htaken : ¬ ∃ i' < i, m i' = some p' := by
    rintro ⟨i', hi', hm⟩
    rw [hagree i' hi'] at hm
    exact absurd (h'.injective i' i p' hm hp') (by omega)
  -- Further in, by the rule on keywords between; further on, by the rule on gaps.
  rintro (hlt | ⟨heq, hlt⟩)
  · obtain ⟨place, hplace, hat⟩ := h'.after i p' hp'
    exact htaken (h.between i p hp p'.1 hlt place hplace hat p'.2 hkind)
  · have hgapless := h.gapless i p hp p'.2 hlt
    rw [heq] at hgapless
    exact htaken (hgapless hkind)

/-- There is at most one matching. -/
theorem unique (h : Matching r tokens chain m) (h' : Matching r tokens chain m') : m = m' := by
  funext i
  induction i using Nat.strongRecOn with
  | ind i ih =>
    have hdomain : (m i).isSome = (m' i).isSome := by rw [h.domain, h'.domain]
    cases hp : m i with
    | none =>
      rw [hp] at hdomain
      exact (Option.isNone_iff_eq_none.1 (by simpa using hdomain.symm)).symm
    | some p =>
      rw [hp] at hdomain
      obtain ⟨p', hp'⟩ := Option.isSome_iff_exists.1 hdomain.symm
      have hleft := h.not_beyond h' ih hp hp'
      have hright := h'.not_beyond h (fun i' hi' => (ih i' hi').symm) hp' hp
      have heq : p = p' := Prod.ext (by omega) (by omega)
      rw [hp', heq]

end Matching

/-! ## Positions of tokens -/

namespace Registry

variable {r : Registry α} {read : List String} {token : String}

theorem valueAt?_append (r : Registry α) (read : List String) (token : String) (i : Nat) :
    r.valueAt? (read ++ [token]) i
      = if i = read.length then r.value? token else r.valueAt? read i := by
  unfold valueAt?
  rcases Nat.lt_trichotomy i read.length with hi | rfl | hi
  · rw [if_neg (by omega), List.getElem?_append_left hi]
  · simp
  · rw [if_neg (by omega), List.getElem?_eq_none (by simp; omega),
      List.getElem?_eq_none (by omega)]

theorem lt_of_isSome_valueAt? {i : Nat} (h : (r.valueAt? read i).isSome = true) :
    i < read.length := by
  by_contra hi
  rw [valueAt?, List.getElem?_eq_none (by omega)] at h
  cases h

theorem keywordPlaces_append (r : Registry α) (read : List String) (token : String) :
    r.keywordPlaces (read ++ [token])
      = r.keywordPlaces read ++ if (r.keyword? token).isSome then [read.length] else [] := by
  unfold keywordPlaces
  rw [List.length_append, List.length_singleton, List.range_succ, List.filter_append]
  congr 1
  · refine List.filter_congr fun i hi => ?_
    rw [List.getElem?_append_left (List.mem_range.1 hi)]
  · simp [List.filter_cons]

theorem lt_of_mem_keywordPlaces {place : Nat} (h : place ∈ r.keywordPlaces read) :
    place < read.length :=
  List.mem_range.1 (List.mem_of_mem_filter h)

theorem keywordPlaces_append_left {k place : Nat} (h : (r.keywordPlaces read)[k]? = some place) :
    (r.keywordPlaces (read ++ [token]))[k]? = some place := by
  rw [keywordPlaces_append]
  exact List.getElem?_append_left (List.getElem?_eq_some_iff.1 h).1 ▸ h

theorem keywordPlaces_of_append {k place : Nat} (hplace : place < read.length)
    (h : (r.keywordPlaces (read ++ [token]))[k]? = some place) :
    (r.keywordPlaces read)[k]? = some place := by
  rw [keywordPlaces_append, List.getElem?_append] at h
  split at h
  · exact h
  · have hmem := List.mem_of_getElem? h
    split at hmem
    · rw [List.mem_singleton] at hmem
      omega
    · cases hmem

end Registry

/-! ## Reading finds one -/

namespace Matching

variable {r : Registry α} {read : List String} {token : String} {chain chain' : Chain α}
  {m : Nat → Option Place}

theorem empty (r : Registry α) : Matching r [] [] fun _ => none where
  domain _ := rfl
  injective _ _ _ h := by cases h
  onto _ h := by cases h
  value _ _ h := by cases h
  kind _ _ _ h := by cases h
  after _ _ h := by cases h
  between _ _ h := by cases h
  gapless _ _ h := by cases h

theorem isSome_valueAt? (h : Matching r read chain m) {i : Nat} {p : Place} (hp : m i = some p) :
    (chain.valueAt? p).isSome = true := by
  rw [h.value i p hp, ← h.domain, hp]
  rfl

theorem lt_length (h : Matching r read chain m) {i : Nat} {p : Place} (hp : m i = some p) :
    p.1 < chain.length :=
  Chain.lt_length_of_isSome_valueAt? (h.isSome_valueAt? hp)

theorem lt_tokens (h : Matching r read chain m) {i : Nat} {p : Place} (hp : m i = some p) :
    i < read.length :=
  Registry.lt_of_isSome_valueAt? (by rw [← h.domain, hp]; rfl)

theorem lt_keywords (h : Matching r read chain m) {i : Nat} {p : Place} (hp : m i = some p) :
    p.1 < (r.keywordPlaces read).length := by
  obtain ⟨place, -, hat⟩ := h.after i p hp
  exact (List.getElem?_eq_some_iff.1 hat).1

/-- A token that means no value keeps the matching, if the chain keeps its values. -/
theorem skip (h : Matching r read chain m) (htoken : r.value? token = none)
    (hvalues : ∀ p, chain'.valueAt? p = chain.valueAt? p)
    (hkinds : ∀ p, p.1 < (r.keywordPlaces read).length → chain'.kindAt? p = chain.kindAt? p) :
    Matching r (read ++ [token]) chain' m := by
  have hvalueAt : ∀ i, r.valueAt? (read ++ [token]) i = r.valueAt? read i := by
    intro i
    rw [Registry.valueAt?_append]
    split
    · next hi =>
      rw [htoken, hi, Registry.valueAt?, List.getElem?_eq_none (by omega)]
      rfl
    · rfl
  have hplaced : ∀ i p, m i = some p → p.1 < (r.keywordPlaces read).length :=
    fun i p hp => h.lt_keywords hp
  constructor
  case domain => exact fun i => by rw [hvalueAt, h.domain]
  case injective => exact h.injective
  case onto => exact fun p hp => h.onto p (by rw [← hvalues, hp])
  case value => exact fun i p hp => by rw [hvalues, hvalueAt, h.value i p hp]
  case kind =>
    intro i p v hp hv
    rw [hvalueAt] at hv
    rw [hkinds p (hplaced i p hp)]
    exact h.kind i p v hp hv
  case after =>
    intro i p hp
    obtain ⟨place, hplace, hat⟩ := h.after i p hp
    exact ⟨place, hplace, Registry.keywordPlaces_append_left hat⟩
  case between =>
    intro i p hp k hk place hplace hat j hkind
    have hat' := Registry.keywordPlaces_of_append
      (Nat.lt_trans hplace (h.lt_tokens hp)) hat
    rw [hkinds _ (List.getElem?_eq_some_iff.1 hat').1, hkinds p (hplaced i p hp)] at hkind
    exact h.between i p hp k hk place hplace hat' j hkind
  case gapless =>
    intro i p hp j hj hkind
    rw [hkinds (p.1, j) (hplaced i p hp), hkinds p (hplaced i p hp)] at hkind
    exact h.gapless i p hp j hj hkind

/-- What a matching says once the next token has a place. -/
theorem update_eq_some_iff (h : Matching r read chain m) {p q : Place} {i : Nat} :
    Function.update m read.length (some p) i = some q
      ↔ i = read.length ∧ q = p ∨ i < read.length ∧ m i = some q := by
  by_cases hi : i = read.length
  · rw [hi, Function.update_self]
    simp [eq_comm]
  · rw [Function.update_of_ne hi]
    constructor
    · exact fun hq => Or.inr ⟨h.lt_tokens hq, hq⟩
    · rintro (⟨heq, -⟩ | ⟨-, hq⟩)
      · exact absurd heq hi
      · exact hq

/-- A value that is put into the chain comes into the matching. -/
theorem put (h : Matching r read chain m) {v : Value} {p : Place} {kind : ValueKind}
    (htoken : r.value? token = some v) (hputs : chain.Puts v p kind chain')
    (hp : p.1 < (r.keywordPlaces read).length) :
    Matching r (read ++ [token]) chain' (Function.update m read.length (some p)) := by
  have hold : ∀ i q, m i = some q → Function.update m read.length (some p) i = some q :=
    fun i q hq => h.update_eq_some_iff.2 (Or.inr ⟨h.lt_tokens hq, hq⟩)
  have hfree : ∀ i q, m i = some q → q ≠ p := by
    rintro i q hq rfl
    have hsome := h.isSome_valueAt? hq
    rw [hputs.free] at hsome
    cases hsome
  -- What is full in the chain was taken by the tokens before.
  have htaken : ∀ k j, (p.1 < k ∨ p.1 = k ∧ j < p.2) → chain.kindAt? (k, j) = some kind →
      ∃ i < read.length, Function.update m read.length (some p) i = some (k, j) := by
    intro k j hkj hkind
    obtain ⟨i, hi⟩ := h.onto (k, j) (hputs.full k j hkj hkind)
    exact ⟨i, h.lt_tokens hi, hold i _ hi⟩
  constructor
  case domain =>
    intro i
    rw [Registry.valueAt?_append]
    split
    · next hi => rw [hi, Function.update_self, htoken]; rfl
    · next hi => rw [Function.update_of_ne hi, h.domain]
  case injective =>
    intro i i' q hi hi'
    rcases h.update_eq_some_iff.1 hi with ⟨rfl, rfl⟩ | ⟨-, hi⟩ <;>
      rcases h.update_eq_some_iff.1 hi' with ⟨rfl, heq⟩ | ⟨-, hi'⟩
    · rfl
    · exact absurd rfl (hfree i' q hi')
    · exact absurd heq (hfree i q hi)
    · exact h.injective i i' q hi hi'
  case onto =>
    intro q hq
    rw [hputs.values] at hq
    split at hq
    · next heq => exact ⟨read.length, by rw [Function.update_self, heq]⟩
    · obtain ⟨i, hi⟩ := h.onto q hq
      exact ⟨i, hold i q hi⟩
  case value =>
    intro i q hq
    rw [Registry.valueAt?_append, hputs.values]
    rcases h.update_eq_some_iff.1 hq with ⟨rfl, rfl⟩ | ⟨hi, hq⟩
    · rw [if_pos rfl, if_pos rfl, htoken]
    · rw [if_neg (hfree i q hq), if_neg (by omega), h.value i q hq]
  case kind =>
    intro i q w hq hw
    rw [Registry.valueAt?_append] at hw
    rw [hputs.kinds]
    rcases h.update_eq_some_iff.1 hq with ⟨rfl, rfl⟩ | ⟨hi, hq⟩
    · rw [if_pos rfl, htoken, Option.some.injEq] at hw
      exact ⟨kind, hputs.place, hw ▸ hputs.fits⟩
    · rw [if_neg (by omega)] at hw
      exact h.kind i q w hq hw
  case after =>
    intro i q hq
    rcases h.update_eq_some_iff.1 hq with ⟨rfl, rfl⟩ | ⟨-, hq⟩
    · have hat := List.getElem?_eq_getElem hp
      exact ⟨_, Registry.lt_of_mem_keywordPlaces (List.getElem_mem hp),
        Registry.keywordPlaces_append_left hat⟩
    · obtain ⟨place, hplace, hat⟩ := h.after i q hq
      exact ⟨place, hplace, Registry.keywordPlaces_append_left hat⟩
  case between =>
    intro i q hq k hk place hplace hat j hkind
    rw [hputs.kinds, hputs.kinds] at hkind
    rcases h.update_eq_some_iff.1 hq with ⟨rfl, rfl⟩ | ⟨hi, hq⟩
    · rw [hputs.place] at hkind
      exact htaken k j (Or.inl hk) hkind
    · have hat' := Registry.keywordPlaces_of_append (Nat.lt_trans hplace hi) hat
      obtain ⟨i', hi', hm⟩ := h.between i q hq k hk place hplace hat' j hkind
      exact ⟨i', hi', hold i' _ hm⟩
  case gapless =>
    intro i q hq j hj hkind
    rw [hputs.kinds, hputs.kinds] at hkind
    rcases h.update_eq_some_iff.1 hq with ⟨rfl, rfl⟩ | ⟨-, hq⟩
    · rw [hputs.place] at hkind
      exact htaken _ j (Or.inr ⟨rfl, hj⟩) hkind
    · obtain ⟨i', hi', hm⟩ := h.gapless i q hq j hj hkind
      exact ⟨i', hi', hold i' _ hm⟩

end Matching

namespace Registry

variable {r : Registry α} {tokens passed : List String} {opened : List (Node α)}

/-- The open nodes are those of the keywords. -/
theorem definitions_of_readInto (h : r.readInto [] tokens = (passed, .ok opened)) :
    opened.reverse.map Node.definition = tokens.filterMap r.keyword? := by
  refine readInto_keeps (P := fun read opened =>
    opened.reverse.map Node.definition = read.filterMap r.keyword?) rfl ?filler ?keyword ?value h
  case filler =>
    intro read opened token hread hm
    simp [hread, keyword?, hm]
  case keyword =>
    intro read opened token d hread hm
    simp [← hread, keyword?, hm, Node.ofDefinition]
  case value =>
    intro read opened token v opened' hread hm hbind
    have hdefinitions := Chain.map_definition_of_bind? hbind
    simp only [List.map_reverse] at hread ⊢
    simp [← hread, keyword?, hm, hdefinitions]

/-- Each token opens a node, brings a value, or is passed over. -/
theorem length_of_readInto (h : r.readInto [] tokens = (passed, .ok opened)) :
    tokens.length = opened.length + (Chain.values opened).length + passed.length := by
  rw [passed_of_readInto h]
  refine readInto_keeps (P := fun read opened => read.length
    = opened.length + (Chain.values opened).length + (r.fillers read).length)
    rfl ?filler ?keyword ?value h
  case filler =>
    intro read opened token hread hm
    simp only [fillers, List.filter_append, List.length_append] at hread ⊢
    simp [isFiller, hm]
    omega
  case keyword =>
    intro read opened token d hread hm
    simp only [fillers, List.filter_append, List.length_append, Chain.values_ofDefinition,
      List.length_cons] at hread ⊢
    simp [isFiller, hm]
    omega
  case value =>
    intro read opened token v opened' hread hm hbind
    have hopened := Chain.length_of_bind? hbind
    have hvalues := Chain.length_values_of_bind? hbind
    simp only [fillers, List.filter_append, List.length_append] at hread ⊢
    simp [isFiller, hm]
    omega

/-- **Reading finds a matching, and keeps what every token keeps of it.** `Q` speaks of the tokens
    that were read, of the nodes that they opened, and of the matching between them. -/
theorem exists_matching_keeps {Q : List String → List (Node α) → (Nat → Option Place) → Prop}
    (start : Q [] [] fun _ => none)
    (filler : ∀ read opened token m, Matching r read opened.reverse m →
      (r.keywordPlaces read).length = opened.length → Q read opened m →
      r.meaning token = .ok none → Q (read ++ [token]) opened m)
    (keyword : ∀ read opened token d m, Matching r read opened.reverse m →
      (r.keywordPlaces read).length = opened.length → Q read opened m →
      r.meaning token = .ok (some (.keyword d)) → Q (read ++ [token]) (.ofDefinition d :: opened) m)
    (value : ∀ read opened token v opened' m p kind, Matching r read opened.reverse m →
      (r.keywordPlaces read).length = opened.length → Q read opened m →
      r.meaning token = .ok (some (.value v)) →
      Chain.bind? v opened = some opened' → Chain.Puts v opened.reverse p kind opened'.reverse →
      Q (read ++ [token]) opened' (Function.update m read.length (some p)))
    (h : r.readInto [] tokens = (passed, .ok opened)) :
    (r.keywordPlaces tokens).length = opened.length
      ∧ ∃ m, Matching r tokens opened.reverse m ∧ Q tokens opened m := by
  have hkeeps : (∀ n ∈ opened, Slot.NoneAwaited n.slots)
      ∧ (r.keywordPlaces tokens).length = opened.length
      ∧ ∃ m, Matching r tokens opened.reverse m ∧ Q tokens opened m := by
    refine readInto_keeps (P := fun read opened => (∀ n ∈ opened, Slot.NoneAwaited n.slots)
      ∧ (r.keywordPlaces read).length = opened.length
      ∧ ∃ m, Matching r read opened.reverse m ∧ Q read opened m)
      ⟨by simp, rfl, _, .empty r, start⟩ ?filler ?keyword ?value h
    case filler =>
      rintro read opened token ⟨hnone, hlength, m, hmatching, hq⟩ hm
      refine ⟨hnone, ?_, m, hmatching.skip ?_ (fun _ => rfl) fun _ _ => rfl,
        filler _ _ _ m hmatching hlength hq hm⟩
      · simp [keywordPlaces_append, keyword?, hm, hlength]
      · simp [value?, hm]
    case keyword =>
      rintro read opened token d ⟨hnone, hlength, m, hmatching, hq⟩ hm
      refine ⟨List.forall_mem_cons.2 ⟨Node.noneAwaited_ofDefinition d, hnone⟩, ?_, m, ?_,
        keyword _ _ _ d m hmatching hlength hq hm⟩
      · simp [keywordPlaces_append, keyword?, hm, hlength]
      · rw [List.reverse_cons]
        refine hmatching.skip ?_ (Chain.valueAt?_append_ofDefinition _ d) fun p hp => ?_
        · simp [value?, hm]
        · exact Chain.kindAt?_append_of_lt (by simpa [hlength] using hp)
    case value =>
      rintro read opened token v opened' ⟨hnone, hlength, m, hmatching, hq⟩ hm hbind
      obtain ⟨p, kind, hp, hputs⟩ := Chain.puts_of_bind? hbind hnone
      refine ⟨Chain.bind?_keeps hbind (fun n n' h hn => h.take? hn) hnone, ?_, _,
        hmatching.put ?_ hputs (by omega),
        value _ _ _ v _ m p kind hmatching hlength hq hm hbind hputs⟩
      · simp [keywordPlaces_append, keyword?, hm, hlength, Chain.length_of_bind? hbind]
      · simp [value?, hm]
  exact hkeeps.2

/-- Reading finds a matching. -/
theorem matching_of_readInto (h : r.readInto [] tokens = (passed, .ok opened)) :
    ∃ m, Matching r tokens opened.reverse m := by
  obtain ⟨-, m, hm, -⟩ := exists_matching_keeps (Q := fun _ _ _ => True) trivial
    (fun _ _ _ _ _ _ _ _ => trivial) (fun _ _ _ _ _ _ _ _ _ => trivial)
    (fun _ _ _ _ _ _ _ _ _ _ _ _ _ _ => trivial) h
  exact ⟨m, hm⟩

end Registry

/-! ## Compiled commands -/

/-- A matching sees a chain through its kinds and values only. -/
theorem Matching.congr {r : Registry α} {tokens : List String} {chain chain' : Chain α}
    {m : Nat → Option Place} (h : Matching r tokens chain m)
    (hkinds : ∀ p, chain'.kindAt? p = chain.kindAt? p)
    (hvalues : ∀ p, chain'.valueAt? p = chain.valueAt? p) : Matching r tokens chain' m where
  domain := h.domain
  injective := h.injective
  onto p hp := h.onto p (by rw [← hvalues, hp])
  value i p hp := by rw [hvalues, h.value i p hp]
  kind i p v hp hv := by rw [hkinds]; exact h.kind i p v hp hv
  after := h.after
  between i p hp k hk place hplace hat j hkind := by
    rw [hkinds, hkinds] at hkind
    exact h.between i p hp k hk place hplace hat j hkind
  gapless i p hp j hj hkind := by
    rw [hkinds, hkinds] at hkind
    exact h.gapless i p hp j hj hkind

/-- **Compiling loses and invents nothing.** The chain of a command is that of its keywords, in
    order; there is exactly one matching of its values to places of the chain; and each token is a
    node, a value in a slot, or passed over. -/
theorem matching_of_compile {r : Registry α} {tokens : List String} {c : Command α}
    (hc : (r.compile tokens).result = .ok c) :
    c.chain.map Node.definition = tokens.filterMap r.keyword?
      ∧ (c.chain = [] ↔ ∀ token ∈ tokens, r.keyword? token = none)
      ∧ (c.chain = [] → ∀ token ∈ tokens, r.value? token = none)
      ∧ (∃! m, Matching r tokens c.chain m)
      ∧ tokens.length = c.chain.length + c.chain.values.length + c.skipped.length := by
  obtain ⟨opened, hread, hchain, -⟩ := Registry.compile_eq_ok_iff.1 hc
  obtain ⟨hdefinitions, hkinds, hvalues, hall⟩ :=
    Chain.places_of_sameValues (Chain.sameValues_close opened)
  obtain ⟨m, hm⟩ := Registry.matching_of_readInto hread
  have hmatching : Matching r tokens c.chain m := hchain ▸ hm.congr hkinds hvalues
  have hkeywords : c.chain.map Node.definition = tokens.filterMap r.keyword? := by
    rw [hchain, hdefinitions, Registry.definitions_of_readInto hread]
  have hlength : c.chain.length = opened.length := by
    have hmap := congrArg List.length hdefinitions
    rw [hchain]
    simpa using hmap
  refine ⟨hkeywords, ?_, ?_, ⟨m, hmatching, fun m' hm' => hm'.unique hmatching⟩, ?_⟩
  · rw [← List.map_eq_nil_iff (f := Node.definition), hkeywords, List.filterMap_eq_nil_iff]
  · intro hnil token htoken
    obtain ⟨i, hi⟩ := List.mem_iff_getElem?.1 htoken
    have hvalue : r.valueAt? tokens i = r.value? token := by rw [Registry.valueAt?, hi]; rfl
    cases hplace : m i with
    | none =>
      have hdomain := hmatching.domain i
      rw [hplace, hvalue] at hdomain
      exact Option.isNone_iff_eq_none.1 (by simpa using hdomain.symm)
    | some p =>
      have hlt := hmatching.lt_length hplace
      simp [hnil] at hlt
  · rw [hlength, hchain, hall, Chain.length_values_reverse]
    exact Registry.length_of_readInto hread

/-- A value passes over the keyword before it, which has no slot for it. -/
theorem matching_of_compile_light_pick_lamp :
    let r : Registry Unit := (Registry.history
      [.draft { kind := some .function, words := ["light"], required := some [.value .element],
                optional := [.value .color], handler := some ⟨2, ()⟩ },
       .draft { kind := some .function, words := ["pick"], produces := some (.value .color),
                handler := some ⟨0, ()⟩ },
       .draft { kind := some (.value .element), words := ["lamp"] }]).2
    let tokens := ["light", "pick", "the", "lamp"]
    let outer : Node Unit :=
      ⟨⟨"light", [], .function ⟨[.element], [.color], none, ⟨2, ()⟩⟩⟩,
        [⟨.element, true, .value (.word (.value .element) "lamp")⟩, ⟨.color, false, .awaited⟩]⟩
    let inner : Node Unit := ⟨⟨"pick", [], .function ⟨[], [], some .color, ⟨0, ()⟩⟩⟩, []⟩
    let chain : Chain Unit := [outer, inner]
    (r.compile tokens).result = .ok ⟨chain, ["the"]⟩
      ∧ chain.map Node.definition = tokens.filterMap r.keyword?
      ∧ (chain = [] ↔ ∀ token ∈ tokens, r.keyword? token = none)
      ∧ (chain = [] → ∀ token ∈ tokens, r.value? token = none)
      ∧ (∃! m, Matching r tokens chain m)
      ∧ tokens.length = chain.length + chain.values.length + 1 := by
  intro r tokens outer inner chain
  have hc : (r.compile tokens).result = .ok ⟨chain, ["the"]⟩ := rfl
  exact ⟨hc, matching_of_compile hc⟩

end CueScript

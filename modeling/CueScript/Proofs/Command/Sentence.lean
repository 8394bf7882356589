import CueScript.Proofs.Command.Fillers
import CueScript.Proofs.Command.Matching
import Mathlib.Data.List.Perm.Basic

set_option autoImplicit false

/-! # The sentence of a command

A value may stand far from the keyword to which it belongs, behind other keywords that had no slot
for it. The *sentence* of a command puts each value behind its own keyword and leaves out what was
skipped: one *clause* for each keyword, in order, and in it the values of the keyword, in order.

A clause read by itself opens one node, with all that the node holds in the command
(`readInto_clause`), because every value of the clause was bound to this node when it was read. What
is read over no open node is read in the same way over others (`readInto_over`). So the clauses one
after the other open the same nodes, and the sentence compiles to the same chain, with the same
awaited products (`compile_sentence`). -/

namespace CueScript

variable {α : Type}

namespace Registry

/-! ## Clauses -/

/-- The token of the keyword at a position of the chain. -/
def keywordOf (r : Registry α) (tokens : List String) (k : Nat) : List String :=
  ((r.keywordPlaces tokens)[k]?.bind fun i => tokens[i]?).toList

/-- The tokens that a matching sends to the node at a position of the chain, in order. -/
def valuesOf (tokens : List String) (m : Nat → Option Place) (k : Nat) : List String :=
  ((List.range tokens.length).filter fun i => (m i).map Prod.fst = some k).filterMap
    fun i => tokens[i]?

/-- A keyword and its values. -/
def clause (r : Registry α) (tokens : List String) (m : Nat → Option Place) (k : Nat) :
    List String :=
  r.keywordOf tokens k ++ valuesOf tokens m k

/-- The clauses of all keywords, one after the other. -/
def sentence (r : Registry α) (tokens : List String) (m : Nat → Option Place) : List String :=
  (List.range (r.keywordPlaces tokens).length).flatMap (r.clause tokens m)

variable {r : Registry α} {read : List String} {token : String}

theorem keywordOf_append_of_lt (token : String) {k : Nat}
    (hk : k < (r.keywordPlaces read).length) :
    r.keywordOf (read ++ [token]) k = r.keywordOf read k := by
  have hplace := List.getElem?_eq_getElem hk
  have hlt := lt_of_mem_keywordPlaces (List.getElem_mem hk)
  rw [keywordOf, keywordOf, keywordPlaces_append_left hplace, hplace, Option.bind_some,
    Option.bind_some, List.getElem?_append_left hlt]

theorem keywordOf_append_self (h : (r.keyword? token).isSome = true) :
    r.keywordOf (read ++ [token]) (r.keywordPlaces read).length = [token] := by
  simp [keywordOf, keywordPlaces_append, h]

theorem valuesOf_append {m m' : Nat → Option Place} (hagree : ∀ i < read.length, m' i = m i)
    (token : String) (k : Nat) :
    valuesOf (read ++ [token]) m' k
      = valuesOf read m k ++ if (m' read.length).map Prod.fst = some k then [token] else [] := by
  unfold valuesOf
  rw [List.length_append, List.length_singleton, List.range_succ, List.filter_append,
    List.filterMap_append]
  congr 1
  · rw [List.filter_congr fun i hi => by rw [hagree i (List.mem_range.1 hi)]]
    refine List.filterMap_congr fun i hi => ?_
    exact List.getElem?_append_left (List.mem_range.1 (List.mem_of_mem_filter hi))
  · by_cases hk : (m' read.length).map Prod.fst = some k <;> simp [hk]

theorem valuesOf_eq_nil {m : Nat → Option Place} {k : Nat} (h : ∀ i p, m i = some p → p.1 ≠ k) :
    valuesOf read m k = [] := by
  have hnone : ∀ i, ¬ (m i).map Prod.fst = some k := by
    intro i hi
    obtain ⟨p, hp, hk⟩ := Option.map_eq_some_iff.1 hi
    exact h i p hp hk
  simp [valuesOf, hnone]

/-! ## One more token -/

section OneMore

variable {chain : Chain α} {m m' : Nat → Option Place}

/-- Another token comes to the clause of the keyword to which it belongs. -/
theorem clause_append (hagree : ∀ i < read.length, m' i = m i) (token : String) {k : Nat}
    (hk : k < (r.keywordPlaces read).length) :
    r.clause (read ++ [token]) m' k
      = r.clause read m k ++ if (m' read.length).map Prod.fst = some k then [token] else [] := by
  rw [clause, clause, keywordOf_append_of_lt token hk, valuesOf_append hagree, List.append_assoc]

/-- A token that means no value changes no clause. -/
theorem clause_append_of_none (h : Matching r read chain m) (token : String) {k : Nat}
    (hk : k < (r.keywordPlaces read).length) :
    r.clause (read ++ [token]) m k = r.clause read m k := by
  have hnone : m read.length = none := by
    rw [Option.eq_none_iff_forall_ne_some]
    exact fun p hp => Nat.lt_irrefl _ (h.lt_tokens hp)
  rw [clause_append (fun _ _ => rfl) token hk, hnone]
  simp

/-- A keyword begins a clause of its own. -/
theorem clause_append_keyword (h : Matching r read chain m)
    (hkeyword : (r.keyword? token).isSome = true) :
    r.clause (read ++ [token]) m (r.keywordPlaces read).length = [token] := by
  rw [clause, keywordOf_append_self hkeyword,
    valuesOf_eq_nil fun i p hp => Nat.ne_of_lt (h.lt_keywords hp), List.append_nil]

/-- A value comes to the end of the clause of its keyword. -/
theorem clause_append_value (m : Nat → Option Place) (p : Place) (token : String) {k : Nat}
    (hk : k < (r.keywordPlaces read).length) :
    r.clause (read ++ [token]) (Function.update m read.length (some p)) k
      = r.clause read m k ++ if p.1 = k then [token] else [] := by
  rw [clause_append (fun i hi => Function.update_of_ne (Nat.ne_of_lt hi) _ _) token hk,
    Function.update_self]
  simp

theorem length_keywordPlaces_append (hkeyword : r.keyword? token = none) :
    (r.keywordPlaces (read ++ [token])).length = (r.keywordPlaces read).length := by
  simp [keywordPlaces_append, hkeyword]

theorem sentence_append_filler (h : Matching r read chain m) (hkeyword : r.keyword? token = none) :
    r.sentence (read ++ [token]) m = r.sentence read m := by
  rw [sentence, sentence, length_keywordPlaces_append hkeyword]
  exact List.flatMap_congr fun k hk => clause_append_of_none h token (List.mem_range.1 hk)

theorem sentence_append_keyword (h : Matching r read chain m)
    (hkeyword : (r.keyword? token).isSome = true) :
    r.sentence (read ++ [token]) m = r.sentence read m ++ [token] := by
  have hlength : (r.keywordPlaces (read ++ [token])).length
      = (r.keywordPlaces read).length + 1 := by
    simp [keywordPlaces_append, hkeyword]
  rw [sentence, sentence, hlength, List.range_succ, List.flatMap_append, List.flatMap_singleton,
    clause_append_keyword h hkeyword]
  congr 1
  exact List.flatMap_congr fun k hk => clause_append_of_none h token (List.mem_range.1 hk)

theorem flatMap_range_ite {β : Type} (x : β) {j n : Nat} (hj : j < n) :
    (List.range n).flatMap (fun k => if j = k then [x] else []) = [x] := by
  induction n with
  | zero => cases hj
  | succ n ih =>
    rw [List.range_succ, List.flatMap_append, List.flatMap_singleton]
    by_cases hjn : j = n
    · have hbefore : (List.range n).flatMap (fun k => if j = k then [x] else []) = [] := by
        rw [List.flatMap_eq_nil_iff]
        intro k hk
        have hkn := List.mem_range.1 hk
        exact if_neg (by omega)
      rw [hbefore, if_pos hjn, List.nil_append]
    · rw [ih (by omega), if_neg hjn, List.append_nil]

theorem sentence_append_value (m : Nat → Option Place) {p : Place}
    (hp : p.1 < (r.keywordPlaces read).length) (hkeyword : r.keyword? token = none) :
    (r.sentence (read ++ [token]) (Function.update m read.length (some p))).Perm
      (r.sentence read m ++ [token]) := by
  rw [sentence, length_keywordPlaces_append hkeyword,
    List.flatMap_congr fun k hk => clause_append_value m p token (List.mem_range.1 hk)]
  refine (List.flatMap_append_perm _ _ _).symm.trans ?_
  rw [flatMap_range_ite token hp]
  exact .refl _

end OneMore

/-! ## Reading the sentence -/

end Registry

/-- A value that finds a slot finds the same one if more nodes are open around. -/
theorem Chain.bind?_append {v : Value} {opened opened' : List (Node α)}
    (h : bind? v opened = some opened') (outer : List (Node α)) :
    bind? v (opened ++ outer) = some (opened' ++ outer) := by
  obtain ⟨inner, n, n', rest, rfl, hn, hinner, rfl⟩ := bind?_eq_some_iff.1 h
  rw [bind?_eq_some_iff]
  exact ⟨inner, n, n', rest ++ outer, by simp, hn, hinner, by simp⟩

namespace Registry

variable {r : Registry α}

/-- Tokens that are read over some nodes are read in the same way if more nodes are open around. -/
theorem readInto_over {tokens passed : List String} {opened opened' : List (Node α)}
    (h : r.readInto opened tokens = (passed, .ok opened')) (outer : List (Node α)) :
    r.readInto (opened ++ outer) tokens = (passed, .ok (opened' ++ outer)) := by
  induction tokens generalizing opened passed with
  | nil =>
    obtain ⟨rfl, hopened⟩ := Prod.mk.inj h
    cases hopened
    rfl
  | cons token rest ih =>
    unfold readInto at h ⊢
    split at h
    · cases h
    · next hm =>
      obtain ⟨rfl, hresult⟩ := Prod.mk.inj h
      simp only [ih (Prod.ext rfl hresult)]
    · next d hm => exact ih h
    · next v hm =>
      split at h
      · next opened'' hbind =>
        simp only [Chain.bind?_append hbind]
        exact ih h
      · cases h

/-- Clauses that each open one node open these nodes one after the other. -/
theorem readInto_flatten {clauses : List (List String)} {nodes : List (Node α)}
    (h : List.Forall₂ (fun clause n => r.readInto [] clause = ([], .ok [n])) clauses nodes)
    (opened : List (Node α)) :
    r.readInto opened clauses.flatten = ([], .ok (nodes.reverse ++ opened)) := by
  induction h generalizing opened with
  | nil => rfl
  | @cons clause n clauses nodes hclause _ ih =>
    have hover := readInto_over hclause opened
    simp only [List.nil_append, List.singleton_append] at hover
    rw [List.flatten_cons, readInto_append, hover]
    simp [ih]

/-- A value is bound to one node, that of the place at which it is put. -/
theorem getElem?_of_puts {v : Value} {opened opened' : List (Node α)} {p : Place} {kind : ValueKind}
    (hbind : Chain.bind? v opened = some opened')
    (hputs : Chain.Puts v opened.reverse p kind opened'.reverse) :
    ∃ n n', opened.reverse[p.1]? = some n ∧ n.take? v = some n'
      ∧ ∀ k, opened'.reverse[k]? = if k = p.1 then some n' else opened.reverse[k]? := by
  obtain ⟨inner, n, n', outer, rfl, hn, -, rfl⟩ := Chain.bind?_eq_some_iff.1 hbind
  have hreverse : ∀ m : Node α,
      (inner ++ m :: outer).reverse = outer.reverse ++ m :: inner.reverse := fun m => by simp
  rw [hreverse, hreverse] at hputs ⊢
  have hplace : p.1 = outer.reverse.length := by
    by_contra hne
    -- The value would be at a place of a node that has not changed.
    have hat := hputs.values p
    rw [if_pos rfl, Chain.valueAt?, getElem?_exchange _ _ n, if_neg hne, ← Chain.valueAt?,
      hputs.free] at hat
    cases hat
  refine ⟨n, n', by simp [hplace], hn, fun k => ?_⟩
  rw [getElem?_exchange _ _ n, hplace]

/-- What the clauses of a matching are worth: together they are the tokens without the fillers, in
    another order, and each of them, read by itself, opens the node of its keyword. -/
structure Clauses (r : Registry α) (read : List String) (opened : List (Node α))
    (m : Nat → Option Place) : Prop where
  rearranged : (r.sentence read m).Perm (read.filter fun token => !r.isFiller token)
  opens : ∀ k n, opened.reverse[k]? = some n → r.readInto [] (r.clause read m k) = ([], .ok [n])

namespace Clauses

variable {read : List String} {opened : List (Node α)} {m : Nat → Option Place} {token : String}

theorem filler (h : r.Clauses read opened m) (hmatching : Matching r read opened.reverse m)
    (hlength : (r.keywordPlaces read).length = opened.length)
    (hm : r.meaning token = .ok none) : r.Clauses (read ++ [token]) opened m where
  rearranged := by
    have hkeyword : r.keyword? token = none := by simp [keyword?, hm]
    rw [sentence_append_filler hmatching hkeyword, List.filter_append,
      List.filter_cons_of_neg (by simp [isFiller, hm]), List.filter_nil, List.append_nil]
    exact h.rearranged
  opens := by
    intro k n hk
    have hlt : k < (r.keywordPlaces read).length := by
      simpa [hlength] using (List.getElem?_eq_some_iff.1 hk).1
    rw [clause_append_of_none hmatching token hlt]
    exact h.opens k n hk

theorem keyword (h : r.Clauses read opened m) (hmatching : Matching r read opened.reverse m)
    (hlength : (r.keywordPlaces read).length = opened.length) {d : Definition α}
    (hm : r.meaning token = .ok (some (.keyword d))) :
    r.Clauses (read ++ [token]) (.ofDefinition d :: opened) m := by
  have hkeyword : (r.keyword? token).isSome = true := by simp [keyword?, hm]
  constructor
  case rearranged =>
    rw [sentence_append_keyword hmatching hkeyword, List.filter_append,
      List.filter_cons_of_pos (by simp [isFiller, hm]), List.filter_nil]
    exact h.rearranged.append_right [token]
  case opens =>
    intro k n hk
    rw [List.reverse_cons, List.getElem?_append, List.length_reverse] at hk
    split at hk
    · next hlt =>
      rw [clause_append_of_none hmatching token (hlength ▸ hlt)]
      exact h.opens k n hk
    · -- The clause of the new keyword is its token.
      next hle =>
      obtain ⟨hlast, hn⟩ := List.getElem?_eq_some_iff.1 hk
      rw [List.length_singleton] at hlast
      obtain rfl : k = (r.keywordPlaces read).length := by omega
      rw [List.getElem_singleton] at hn
      rw [clause_append_keyword hmatching hkeyword, ← hn]
      simp [readInto, hm]

theorem value (h : r.Clauses read opened m)
    (hlength : (r.keywordPlaces read).length = opened.length) {v : Value} {opened' : List (Node α)}
    {p : Place} {kind : ValueKind} (hm : r.meaning token = .ok (some (.value v)))
    (hbind : Chain.bind? v opened = some opened')
    (hputs : Chain.Puts v opened.reverse p kind opened'.reverse) :
    r.Clauses (read ++ [token]) opened' (Function.update m read.length (some p)) := by
  have hkeyword : r.keyword? token = none := by simp [keyword?, hm]
  obtain ⟨n, n', hn, htake, hnodes⟩ := getElem?_of_puts hbind hputs
  have hlt : ∀ {k n}, opened.reverse[k]? = some n → k < (r.keywordPlaces read).length := by
    intro k n hk
    simpa [hlength] using (List.getElem?_eq_some_iff.1 hk).1
  constructor
  case rearranged =>
    rw [List.filter_append, List.filter_cons_of_pos (by simp [isFiller, hm]), List.filter_nil]
    exact (sentence_append_value m (hlt hn) hkeyword).trans (h.rearranged.append_right [token])
  case opens =>
    intro k n'' hk
    rw [hnodes] at hk
    by_cases hkp : k = p.1
    · -- The value goes into the node of its clause, which is the only open one.
      subst hkp
      rw [if_pos rfl, Option.some.injEq] at hk
      have hsingle : Chain.bind? v [n] = some [n''] := by simp [Chain.bind?, htake, hk]
      rw [clause_append_value m p token (hlt hn), if_pos rfl, readInto_append, h.opens _ n hn]
      simp [readInto, hm, hsingle]
    · rw [if_neg hkp] at hk
      rw [clause_append_value m p token (hlt hk), if_neg (Ne.symm hkp), List.append_nil]
      exact h.opens k n'' hk

end Clauses

/-- **A clause opens its node.** Reading finds a matching whose clauses open the nodes of their
    keywords, each read by itself. -/
theorem exists_clauses {tokens passed : List String} {opened : List (Node α)}
    (h : r.readInto [] tokens = (passed, .ok opened)) :
    (r.keywordPlaces tokens).length = opened.length
      ∧ ∃ m, Matching r tokens opened.reverse m ∧ r.Clauses tokens opened m :=
  exists_matching_keeps ⟨.refl _, by simp⟩
    (fun _ _ _ _ hmatching hlength hclauses hm => hclauses.filler hmatching hlength hm)
    (fun _ _ _ _ _ hmatching hlength hclauses hm => hclauses.keyword hmatching hlength hm)
    (fun _ _ _ _ _ _ _ _ _ hlength hclauses hm hbind hputs =>
      hclauses.value hlength hm hbind hputs) h

/-- The sentence opens all nodes again, and passes over nothing. -/
theorem Clauses.readInto_sentence {tokens : List String} {opened : List (Node α)}
    {m : Nat → Option Place} (h : r.Clauses tokens opened m)
    (hlength : (r.keywordPlaces tokens).length = opened.length) :
    r.readInto [] (r.sentence tokens m) = ([], .ok opened) := by
  have hclauses : List.Forall₂ (fun clause n => r.readInto [] clause = ([], .ok [n]))
      ((List.range (r.keywordPlaces tokens).length).map (r.clause tokens m)) opened.reverse := by
    refine List.forall₂_iff_get.2 ⟨by simp [hlength], fun k hk hk' => ?_⟩
    simpa using h.opens k _ (List.getElem?_eq_getElem hk')
  have hread := readInto_flatten hclauses []
  rwa [← List.flatMap_def, List.reverse_reverse, List.append_nil] at hread

/-- **The sentence of a command compiles to the same chain.** There is exactly one matching of the
    values of a command to its slots. The sentence that puts each value behind the keyword of its
    node is made of the tokens that were not skipped, and it compiles to the same chain, slot by
    slot, with nothing skipped. -/
theorem compile_sentence {tokens : List String} {c : Command α}
    (hc : (r.compile tokens).result = .ok c) :
    ∃ m, (∀ m', Matching r tokens c.chain m' ↔ m' = m)
      ∧ (r.sentence tokens m).Perm (tokens.filter fun token => !r.isFiller token)
      ∧ r.compile (r.sentence tokens m) = ⟨[], .ok ⟨c.chain, []⟩⟩ := by
  obtain ⟨opened, hread, hchain, hcomplete⟩ := compile_eq_ok_iff.1 hc
  obtain ⟨hlength, m, hopened, hclauses⟩ := exists_clauses hread
  obtain ⟨-, hkinds, hvalues, -⟩ := Chain.places_of_sameValues (Chain.sameValues_close opened)
  have hmatching : Matching r tokens c.chain m := hchain ▸ hopened.congr hkinds hvalues
  have hunique : ∀ m', Matching r tokens c.chain m' ↔ m' = m := by
    intro m'
    constructor
    · exact fun hm' => hm'.unique hmatching
    · rintro rfl
      exact hmatching
  refine ⟨m, hunique, hclauses.rearranged, ?_⟩
  rw [hchain] at hcomplete ⊢
  simp only [compile, hclauses.readInto_sentence hlength, Except.bind, finish, hcomplete]

/-- A color that passed over the inner keyword goes back to the outer one. -/
theorem compile_sentence_fill_create_circle_red :
    let r : Registry Unit := (history
      [.draft { kind := some .function, words := ["fill"],
                required := some [.value .shape, .value .color], handler := some ⟨2, ()⟩ },
       .draft { kind := some .function, words := ["create"], required := some [.value .shape],
                produces := some (.value .shape), handler := some ⟨1, ()⟩ },
       .draft { kind := some (.value .shape), words := ["circle"] },
       .draft { kind := some (.value .color), words := ["red"] }]).2
    let circle := Value.word (.value .shape) "circle"
    let red := Value.word (.value .color) "red"
    let fill : Node Unit :=
      ⟨⟨"fill", [], .function ⟨[.shape, .color], [], none, ⟨2, ()⟩⟩⟩,
        [⟨.shape, true, .awaited⟩, ⟨.color, true, .value red⟩]⟩
    let create : Node Unit :=
      ⟨⟨"create", [], .function ⟨[.shape], [], some .shape, ⟨1, ()⟩⟩⟩,
        [⟨.shape, true, .value circle⟩]⟩
    let tokens := ["fill", "create", "circle", "in", "red"]
    (r.compile tokens).result = .ok ⟨[fill, create], ["in"]⟩
      ∧ ∃ m, Matching r tokens [fill, create] m
        ∧ r.sentence tokens m = ["fill", "red", "create", "circle"]
        ∧ r.compile (r.sentence tokens m) = ⟨[], .ok ⟨[fill, create], []⟩⟩ := by
  intro r circle red fill create tokens
  have hc : (r.compile tokens).result = .ok ⟨[fill, create], ["in"]⟩ := rfl
  obtain ⟨m, hm, -, hcompile⟩ := compile_sentence hc
  have hmatching : Matching r tokens [fill, create] m := (hm m).2 rfl
  have hnone : ∀ i, (r.valueAt? tokens i).isSome = false → m i = none := by
    intro i hi
    rw [← hmatching.domain] at hi
    exact Option.isNone_iff_eq_none.1 (by simpa using hi)
  have hplace : ∀ i v, r.valueAt? tokens i = some v →
      ∃ p, m i = some p ∧ Chain.valueAt? [fill, create] p = some v := by
    intro i v hv
    obtain ⟨p, hp⟩ := Option.isSome_iff_exists.1 (by rw [hmatching.domain, hv]; rfl)
    exact ⟨p, hp, by rw [hmatching.value i p hp, hv]⟩
  have hcircle : m 2 = some (1, 0) := by
    obtain ⟨⟨_ | _ | k, _ | _ | j⟩, hp, hv⟩ := hplace 2 circle rfl
    all_goals simp [Chain.valueAt?, Node.value?, fill, create, circle, red] at hv
    exact hp
  have hred : m 4 = some (0, 1) := by
    obtain ⟨⟨_ | _ | k, _ | _ | j⟩, hp, hv⟩ := hplace 4 red rfl
    all_goals simp [Chain.valueAt?, Node.value?, fill, create, circle, red] at hv
    exact hp
  refine ⟨hc, m, hmatching, ?_, hcompile⟩
  have hplaces : r.keywordPlaces tokens = [0, 1] := rfl
  simp [sentence, clause, keywordOf, valuesOf, hplaces, List.range_succ, tokens, hcircle, hred,
    hnone 0 rfl, hnone 1 rfl, hnone 3 rfl]

end Registry

end CueScript

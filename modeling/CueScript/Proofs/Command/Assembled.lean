import CueScript.Proofs.Command.WellFormed

set_option autoImplicit false

/-! # The nodes of a compiled command

What `Chain.WellFormed` says of a chain as a whole, told node by node and slot by slot: a node with
its slots by their positions, and the node that comes next in the chain, its *child*. All that
running a command relies on can be read off here without knowing how commands are compiled
(`assembled_of_compile`). -/

namespace CueScript

variable {α : Type}

/-- What a node of a compiled command looks like, given its child. -/
structure Node.Assembled (ds : List (Definition α)) (n : Node α) (child : Option (Node α)) :
    Prop where
  registered : n.definition ∈ ds
  invocable : n.kind = .function ∨ n.kind = .event
  -- The slots are the declared ones, and what they hold fits them.
  declared : n.slots.map Slot.spec = n.definition.slots
  typed : ∀ s ∈ n.slots, ∀ v, s.content = .value v → v.kind = .value s.kind
  complete : ∀ s ∈ n.slots, s.required = true → s.content ≠ .empty
  -- At most one slot awaits a product, and only one that comes.
  once : ∀ (i j : Nat) (s t : Slot), n.slots[i]? = some s → n.slots[j]? = some t →
    s.content = .awaited → t.content = .awaited → i = j
  awaited : ∀ (i : Nat) (s : Slot), n.slots[i]? = some s → s.content = .awaited →
    n.kind = .function
      ∧ (∃ m, child = some m ∧ m.kind = .function ∧ m.definition.produces? = some s.kind)
      ∧ ∀ j < i, ∀ t : Slot, n.slots[j]? = some t → t.kind = s.kind → ∃ v, t.content = .value v
  -- A product that no slot awaits has nowhere to go.
  unused : n.kind = .function → ∀ m kind, child = some m → m.kind = .function →
    m.definition.produces? = some kind → (∀ s ∈ n.slots, s.content ≠ .awaited) →
    ∀ s ∈ n.slots, s.kind = kind → s.content ≠ .empty
  event : n.kind = .event → ∀ s ∈ n.slots, s.content ≠ .awaited

/-! ## Slots by position -/

/-- Among slots of which one awaits a product, it is found where it stands. -/
theorem Slot.position_of_awaited {before after : List Slot} {s t : Slot} {j : Nat}
    (hbefore : NoneAwaited before) (hafter : NoneAwaited after)
    (ht : (before ++ s :: after)[j]? = some t) (hawaited : t.content = .awaited) :
    j = before.length ∧ t = s := by
  rcases Nat.lt_trichotomy j before.length with hj | rfl | hj
  · rw [List.getElem?_append_left hj] at ht
    exact absurd hawaited (hbefore t (List.mem_of_getElem? ht))
  · simp only [List.getElem?_append_right (Nat.le_refl _), Nat.sub_self, List.getElem?_cons_zero,
      Option.some.injEq] at ht
    exact ⟨rfl, ht.symm⟩
  · obtain ⟨d, rfl⟩ : ∃ d, j = before.length + (d + 1) := ⟨j - before.length - 1, by omega⟩
    rw [List.getElem?_append_right (by omega), Nat.add_sub_cancel_left,
      List.getElem?_cons_succ] at ht
    exact absurd hawaited (hafter t (List.mem_of_getElem? ht))

/-- A slot that is neither empty nor awaits a product holds a value. -/
theorem Slot.exists_value {s : Slot} (hempty : s.content ≠ .empty)
    (hawaited : s.content ≠ .awaited) : ∃ v, s.content = .value v := by
  cases hcontent : s.content with
  | empty => exact absurd hcontent hempty
  | value v => exact ⟨v, rfl⟩
  | awaited => exact absurd hcontent hawaited

/-- Only functions produce values. -/
theorem Definition.kind_of_produces? {d : Definition α} {kind : ValueKind}
    (h : d.produces? = some kind) : d.kind = .function := by
  obtain ⟨role, hrole, -⟩ := Option.bind_eq_some_iff.1 h
  rw [Definition.kind, Definition.role_of_function? hrole]

/-! ## Nodes of well-formed chains -/

theorem Node.WellFormed.assembled {ds : List (Definition α)} {n : Node α} {inner : Chain α}
    (h : n.WellFormed ds inner) : n.Assembled ds inner.head? := by
  constructor
  case registered => exact h.sound.known
  case invocable => exact (Definition.function_or_event h.sound.invocable).imp And.left And.left
  case declared => exact h.sound.declared
  case typed => exact h.sound.typed
  case complete => exact h.complete
  case once =>
    intro i j s t hs ht hsa hta
    cases h.awaits with
    | nothing none _ => exact absurd hsa (none s (List.mem_of_getElem? hs))
    | product before after u slots _ noneBefore noneAfter _ _ _ =>
      rw [slots] at hs ht
      rw [(Slot.position_of_awaited noneBefore noneAfter hs hsa).1,
        (Slot.position_of_awaited noneBefore noneAfter ht hta).1]
  case awaited =>
    intro i s hs hawaited
    cases h.awaits with
    | nothing none _ => exact absurd hawaited (none s (List.mem_of_getElem? hs))
    | product before after u slots _ noneBefore noneAfter function produces full =>
      rw [slots] at hs
      obtain ⟨rfl, rfl⟩ := Slot.position_of_awaited noneBefore noneAfter hs hawaited
      refine ⟨function, ?_, fun j hj t ht hkind => ?_⟩
      · obtain ⟨m, hm, hproduces⟩ := Option.bind_eq_some_iff.1 produces
        exact ⟨m, hm, Definition.kind_of_produces? hproduces, hproduces⟩
      · rw [slots, List.getElem?_append_left hj] at ht
        have hmem := List.mem_of_getElem? ht
        exact Slot.exists_value (full t hmem hkind) (noneBefore t hmem)
  case unused =>
    intro hfunction m kind hm _ hproduces hnone
    cases h.awaits with
    | nothing _ noRoom =>
      exact noRoom hfunction kind (by rw [Chain.produces?, hm]; exact hproduces)
    | product before after u slots awaited _ _ _ _ _ =>
      exact absurd awaited (hnone u (by simp [slots]))
  case event =>
    intro hevent
    cases h.awaits with
    | nothing none _ => exact none
    | product _ _ _ _ _ _ _ function _ _ =>
      rw [function] at hevent
      cases hevent

/-- Every node of a well-formed chain is well-formed around those after it. -/
theorem Chain.WellFormed.getElem? {ds : List (Definition α)} {chain : Chain α}
    (h : chain.WellFormed ds) {k : Nat} {n : Node α} (hn : chain[k]? = some n) :
    n.WellFormed ds (chain.drop (k + 1)) := by
  induction chain generalizing k with
  | nil => cases hn
  | cons m inner ih =>
    cases k with
    | zero =>
      cases hn
      exact h.1
    | succ k => exact ih h.2 hn

/-- **Compiled commands are well-formed.** Whatever was registered, every node of a command that
    compiles is one of a registered function or event, holds in its slots what fits them, and awaits
    at most one product, which its child hands to it. -/
theorem assembled_of_compile (calls : List (Registration α)) {tokens : List String} {c : Command α}
    (hc : ((Registry.history calls).2.compile tokens).result = .ok c) {k : Nat} {n : Node α}
    (hn : c.chain[k]? = some n) :
    n.Assembled (Registry.history calls).2.definitions c.chain[k + 1]? := by
  have hr := Registry.holds_history calls
  rw [hr.definitions_eq, ← List.head?_drop]
  exact ((hr.wellFormed_of_compile hc).getElem? hn).assembled

/-- Of two slots of a kind, a value takes the first, and the second awaits the product. -/
theorem assembled_of_compile_mix_red_pick :
    let calls : List (Registration Unit) :=
      [.draft { kind := some .function, words := ["mix"],
                required := some [.value .color, .value .color], handler := some ⟨2, ()⟩ },
       .draft { kind := some .function, words := ["pick"], produces := some (.value .color),
                handler := some ⟨0, ()⟩ },
       .draft { kind := some (.value .color), words := ["red"] }]
    let outer : Node Unit :=
      ⟨⟨"mix", [], .function ⟨[.color, .color], [], none, ⟨2, ()⟩⟩⟩,
        [⟨.color, true, .value (.word (.value .color) "red")⟩, ⟨.color, true, .awaited⟩]⟩
    let inner : Node Unit := ⟨⟨"pick", [], .function ⟨[], [], some .color, ⟨0, ()⟩⟩⟩, []⟩
    ((Registry.history calls).2.compile ["mix", "red", "pick"]).result = .ok ⟨[outer, inner], []⟩
      ∧ [outer, inner][0]? = some outer
      ∧ outer.Assembled (Registry.history calls).2.definitions (some inner) := by
  intro calls outer inner
  have hc : ((Registry.history calls).2.compile ["mix", "red", "pick"]).result
      = .ok ⟨[outer, inner], []⟩ := rfl
  exact ⟨hc, rfl, assembled_of_compile calls hc (k := 0) rfl⟩

end CueScript

import CueScript.Proofs.Command.Reading
import Mathlib.Data.List.Induction

set_option autoImplicit false

/-! # Well-formed chains

What every later phase relies on. While tokens are read, nodes are *sound*: their definitions are
registered, their slots are the declared ones, and values stand in slots of their kind; and no slot
awaits anything yet. Closing the chain lets at most one slot of each function await the product of
the next inner function, and a command with a required slot that is still empty is refused. The
chain of a compiled command is therefore well-formed (`wellFormed_of_compile`), and so is every
part that an event leaves for later. -/

namespace CueScript

variable {α : Type}

/-- What holds of a node from the moment in which it is opened. -/
structure Node.Sound (ds : List (Definition α)) (n : Node α) : Prop where
  known : n.definition ∈ ds
  invocable : n.kind.isValue = false
  declared : n.slots.map Slot.spec = n.definition.slots
  typed : ∀ s ∈ n.slots, ∀ v, s.content = .value v → v.kind = .value s.kind

/-- Nothing is awaited in these slots. -/
def Slot.NoneAwaited (slots : List Slot) : Prop := ∀ s ∈ slots, s.content ≠ .awaited

/-- What a node awaits of the chain that it encloses: nothing, and then a function has no empty slot
    for its product; or the product, in the first slot of its kind that no value took. -/
inductive Node.Awaits (n : Node α) (inner : Chain α) : Prop where
  | nothing (none : Slot.NoneAwaited n.slots)
      (noRoom : n.kind = .function → ∀ kind, inner.produces? = some kind →
        ∀ s ∈ n.slots, s.kind = kind → s.content ≠ .empty)
  | product (before after : List Slot) (s : Slot) (slots : n.slots = before ++ s :: after)
      (awaited : s.content = .awaited) (noneBefore : Slot.NoneAwaited before)
      (noneAfter : Slot.NoneAwaited after) (function : n.kind = .function)
      (produces : inner.produces? = some s.kind)
      (full : ∀ t ∈ before, t.kind = s.kind → t.content ≠ .empty)

/-- What holds of a node of a compiled chain, with the chain that it encloses. -/
structure Node.WellFormed (ds : List (Definition α)) (n : Node α) (inner : Chain α) : Prop where
  sound : n.Sound ds
  awaits : n.Awaits inner
  complete : ∀ s ∈ n.slots, s.required = true → s.content ≠ .empty

/-- Every node is well-formed around those that it encloses. -/
def Chain.WellFormed (ds : List (Definition α)) : Chain α → Prop
  | [] => True
  | n :: inner => n.WellFormed ds inner ∧ Chain.WellFormed ds inner

theorem Chain.WellFormed.sound {ds : List (Definition α)} {chain : Chain α}
    (h : chain.WellFormed ds) : ∀ n ∈ chain, n.Sound ds := by
  induction chain with
  | nil => simp
  | cons n inner ih => exact List.forall_mem_cons.2 ⟨h.1.sound, ih h.2⟩

theorem Chain.WellFormed.complete {ds : List (Definition α)} {chain : Chain α}
    (h : chain.WellFormed ds) :
    ∀ n ∈ chain, ∀ s ∈ n.slots, s.required = true → s.content ≠ .empty := by
  induction chain with
  | nil => simp
  | cons n inner ih => exact List.forall_mem_cons.2 ⟨h.1.complete, ih h.2⟩

/-- What a well-formed chain encloses somewhere is well-formed. -/
theorem Chain.WellFormed.of_append {ds : List (Definition α)} {outer inner : Chain α}
    (h : Chain.WellFormed ds (outer ++ inner)) : inner.WellFormed ds := by
  induction outer with
  | nil => exact h
  | cons n outer ih => exact ih h.2

/-- More definitions do no harm. -/
theorem Node.Sound.mono {ds ds' : List (Definition α)} {n : Node α} (h : n.Sound ds)
    (hsub : ds ⊆ ds') : n.Sound ds' :=
  ⟨hsub h.known, h.invocable, h.declared, h.typed⟩

theorem Chain.WellFormed.mono {ds ds' : List (Definition α)} {chain : Chain α}
    (h : chain.WellFormed ds) (hsub : ds ⊆ ds') : chain.WellFormed ds' := by
  induction chain with
  | nil => trivial
  | cons n inner ih => exact ⟨⟨h.1.sound.mono hsub, h.1.awaits, h.1.complete⟩, ih h.2⟩

/-! ## Opening and filling -/

theorem Node.sound_ofDefinition {ds : List (Definition α)} {d : Definition α} (hd : d ∈ ds)
    (hkind : d.kind.isValue = false) : (Node.ofDefinition d).Sound ds where
  known := hd
  invocable := hkind
  declared := by simp [ofDefinition, Function.comp_def, Slot.spec, Slot.ofSpec]
  typed := by
    intro s hs v hv
    obtain ⟨spec, -, rfl⟩ := List.mem_map.1 hs
    cases hv

theorem Node.noneAwaited_ofDefinition (d : Definition α) :
    Slot.NoneAwaited (Node.ofDefinition d).slots := by
  intro s hs h
  obtain ⟨spec, -, rfl⟩ := List.mem_map.1 hs
  cases h

/-- A sound node stays sound when one of its slots gets another content that fits. -/
theorem Node.Sound.refill {ds : List (Definition α)} {n : Node α} (h : n.Sound ds)
    {before after : List Slot} {s : Slot} {content : Content}
    (hslots : n.slots = before ++ s :: after)
    (hcontent : ∀ v, content = .value v → v.kind = .value s.kind) :
    Node.Sound ds { n with slots := before ++ { s with content := content } :: after } where
  known := h.known
  invocable := h.invocable
  declared := by
    rw [← h.declared, hslots]
    simp [Slot.spec]
  typed := by
    intro t ht v hv
    have htyped := h.typed
    simp only [hslots, List.mem_append, List.mem_cons] at htyped ht
    rcases ht with ht | rfl | ht
    · exact htyped t (Or.inl ht) v hv
    · exact hcontent v hv
    · exact htyped t (Or.inr (Or.inr ht)) v hv

theorem Node.Sound.take? {ds : List (Definition α)} {n n' : Node α} {v : Value} (h : n.Sound ds)
    (hn : n.take? v = some n') : n'.Sound ds := by
  obtain ⟨before, s, after, hslots, hs, -, rfl⟩ := Node.take?_eq_some_iff.1 hn
  refine h.refill hslots fun v' hv' => ?_
  cases hv'
  exact (Slot.isOpenFor_iff.1 hs).1.symm

theorem Slot.NoneAwaited.take? {n n' : Node α} {v : Value} (h : Slot.NoneAwaited n.slots)
    (hn : n.take? v = some n') : Slot.NoneAwaited n'.slots := by
  obtain ⟨before, s, after, hslots, hs, -, rfl⟩ := Node.take?_eq_some_iff.1 hn
  intro t ht
  simp only [NoneAwaited, hslots, List.mem_append, List.mem_cons] at h ht
  rcases ht with ht | rfl | ht
  · exact h t (Or.inl ht)
  · simp
  · exact h t (Or.inr (Or.inr ht))

/-- Nothing is awaited in the nodes that reading opens. -/
theorem Registry.noneAwaited_of_readInto {r : Registry α} {tokens passed : List String}
    {opened : List (Node α)} (hread : r.readInto [] tokens = (passed, .ok opened)) :
    ∀ n ∈ opened, Slot.NoneAwaited n.slots := by
  refine readInto_keeps (P := fun _ opened => ∀ n ∈ opened, Slot.NoneAwaited n.slots) (by simp)
    ?filler ?keyword ?value hread
  case filler => exact fun _ _ _ hopened _ => hopened
  case keyword =>
    exact fun _ _ _ d hopened _ =>
      List.forall_mem_cons.2 ⟨Node.noneAwaited_ofDefinition d, hopened⟩
  case value =>
    exact fun _ _ _ _ _ hopened _ hbind =>
      Chain.bind?_keeps hbind (fun n n' h hn => h.take? hn) hopened

/-- The nodes that reading opens are sound, and nothing is awaited in them. -/
theorem Registry.Holds.sound_of_readInto {r : Registry α} {ds : List (Definition α)}
    (h : r.Holds ds) {tokens passed : List String} {opened : List (Node α)}
    (hread : r.readInto [] tokens = (passed, .ok opened)) :
    ∀ n ∈ opened, n.Sound ds ∧ Slot.NoneAwaited n.slots := by
  have hsound : ∀ n ∈ opened, n.Sound ds := by
    refine readInto_keeps (P := fun _ opened => ∀ n ∈ opened, n.Sound ds) (by simp)
      ?filler ?keyword ?value hread
    case filler => exact fun _ _ _ hopened _ => hopened
    case keyword =>
      intro _ opened token d hopened hm
      obtain ⟨hd, hkind⟩ := h.of_meaning_keyword hm
      exact List.forall_mem_cons.2 ⟨Node.sound_ofDefinition hd hkind, hopened⟩
    case value =>
      intro _ opened token v opened' hopened hm hbind
      exact Chain.bind?_keeps hbind (fun n n' hn htake => hn.take? htake) hopened
  exact fun n hn => ⟨hsound n hn, noneAwaited_of_readInto hread n hn⟩

/-! ## Closing -/

/-- A keyword that opens a node is a function or an event. -/
theorem Definition.function_or_event {d : Definition α} (h : d.kind.isValue = false) :
    (d.kind = .function ∧ ∃ role, d.role = .function role)
      ∨ d.kind = .event ∧ ∃ role, d.role = .event role := by
  obtain ⟨id, aliases, role⟩ := d
  cases role with
  | function f => exact Or.inl ⟨rfl, f, rfl⟩
  | event e => exact Or.inr ⟨rfl, e, rfl⟩
  | literal k => cases h

/-- An open node around a chain keeps everything but the content of at most one empty slot, which
    comes to await the product of the chain. -/
theorem Chain.enclose_cases {ds : List (Definition α)} {n : Node α} (hsound : n.Sound ds)
    (hnone : Slot.NoneAwaited n.slots) (inner : Chain α) :
    (enclose n inner = n :: inner ∧ n.Awaits inner)
      ∨ ∃ before s after, n.slots = before ++ s :: after ∧ s.content = .empty
        ∧ enclose n inner
          = { n with slots := before ++ { s with content := .awaited } :: after } :: inner
        ∧ Node.Awaits { n with slots := before ++ { s with content := .awaited } :: after }
          inner := by
  simp only [enclose]
  rcases Definition.function_or_event hsound.invocable with ⟨hkind, -⟩ | ⟨hkind, -⟩
  -- A function awaits what the chain produces, if a slot has room for it.
  · have hwrapper : n.kind.isWrapper = false := by rw [Node.kind, hkind]; rfl
    simp only [hwrapper, Bool.false_eq_true, if_false]
    cases hproduces : inner.produces? with
    | none =>
      refine Or.inl ⟨rfl, .nothing hnone fun _ kind hk => ?_⟩
      rw [hproduces] at hk
      cases hk
    | some kind =>
      rcases n.await_cases kind with ⟨hfull, hawait⟩ | ⟨before, s, after, hslots, hs, hfull, hawait⟩
      · refine Or.inl ⟨by simp only [hawait], .nothing hnone ?_⟩
        intro _ kind' hk s hs hkind' hempty
        rw [hproduces, Option.some.injEq] at hk
        have hopen : s.isOpenFor (.value kind) = true :=
          Slot.isOpenFor_iff.2 ⟨by rw [hk, hkind'], hempty⟩
        rw [hfull s hs] at hopen
        cases hopen
      · obtain ⟨hskind, hempty⟩ := Slot.isOpenFor_iff.1 hs
        simp only [Slot.NoneAwaited, hslots, List.mem_append, List.mem_cons] at hnone
        refine Or.inr ⟨before, s, after, hslots, hempty, by simp only [hawait], ?_⟩
        refine .product before after { s with content := .awaited } rfl rfl
          (fun t ht => hnone t (Or.inl ht)) (fun t ht => hnone t (Or.inr (Or.inr ht))) hkind ?_ ?_
        · rw [hproduces, ← Kind.value.inj hskind]
        · intro t ht htkind htempty
          have hopen : t.isOpenFor (.value kind) = true :=
            Slot.isOpenFor_iff.2 ⟨by rw [← hskind, htkind], htempty⟩
          rw [hfull t ht] at hopen
          cases hopen
  -- An event takes nothing from the chain that it keeps.
  · have hwrapper : n.kind.isWrapper = true := by rw [Node.kind, hkind]; rfl
    simp only [hwrapper, if_true]
    refine Or.inl ⟨trivial, .nothing hnone fun hfunction => ?_⟩
    rw [Node.kind, hkind] at hfunction
    cases hfunction

theorem Chain.close_append_singleton (opened : List (Node α)) (n : Node α) :
    close (opened ++ [n]) = enclose n (close opened) := by
  simp [close]

theorem Node.missing?_eq_none_iff {n : Node α} :
    n.missing? = none ↔ ∀ s ∈ n.slots, s.required = true → s.content ≠ .empty := by
  simp [missing?, Slot.isEmpty]

theorem Chain.incomplete?_eq_none_iff {chain : Chain α} :
    incomplete? chain = none ↔ ∀ n ∈ chain, n.missing? = none := by
  simp [incomplete?]

/-- Closing sound nodes gives a well-formed chain, if no required slot is left empty. -/
theorem Chain.wellFormed_close {ds : List (Definition α)} {opened : List (Node α)}
    (hopened : ∀ n ∈ opened, n.Sound ds ∧ Slot.NoneAwaited n.slots)
    (hcomplete : ∀ n ∈ close opened, n.missing? = none) : (close opened).WellFormed ds := by
  induction opened using List.reverseRecOn with
  | nil => trivial
  | append_singleton opened n ih =>
    obtain ⟨hsound, hnone⟩ := hopened n (by simp)
    rw [close_append_singleton] at hcomplete ⊢
    rcases enclose_cases hsound hnone (close opened) with
      ⟨heq, hawaits⟩ | ⟨before, s, after, hslots, -, heq, hawaits⟩
    all_goals
      rw [heq] at hcomplete ⊢
      rw [List.forall_mem_cons] at hcomplete
      refine ⟨⟨?_, hawaits, Node.missing?_eq_none_iff.1 hcomplete.1⟩,
        ih (fun m hm => hopened m (List.mem_append_left _ hm)) hcomplete.2⟩
    · exact hsound
    · exact hsound.refill hslots fun v hv => by cases hv

/-- **Compiled chains are well-formed.** -/
theorem Registry.Holds.wellFormed_of_compile {r : Registry α} {ds : List (Definition α)}
    (h : r.Holds ds) {tokens : List String} {c : Command α}
    (hc : (r.compile tokens).result = .ok c) : c.chain.WellFormed ds := by
  obtain ⟨opened, hread, hchain, hcomplete⟩ := compile_eq_ok_iff.1 hc
  rw [Chain.incomplete?_eq_none_iff, hchain] at hcomplete
  rw [hchain]
  exact Chain.wellFormed_close (h.sound_of_readInto hread) hcomplete

end CueScript

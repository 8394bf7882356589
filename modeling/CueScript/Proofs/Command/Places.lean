import CueScript.Proofs.Command.Filling
import CueScript.Proofs.Command.WellFormed

set_option autoImplicit false

/-! # Places in a chain

A place is a node, counted from the outermost, and a slot of it. What compiling does to a chain is
told place by place: opening a node adds places without values at the end, filling puts a value into
one place (`Chain.Puts`), and closing changes no value at all. -/

namespace CueScript

variable {α : Type}

/-- A slot of a node of a chain, by their positions. -/
abbrev Place := Nat × Nat

/-- The value in a slot. -/
def Slot.value? (s : Slot) : Option Value :=
  match s.content with
  | .value v => some v
  | _ => none

/-- The kind of the slot at a position. -/
def Node.kindAt? (n : Node α) (index : Nat) : Option ValueKind := n.slots[index]?.map Slot.kind

namespace Chain

/-- The kind of the slot at a place. -/
def kindAt? (chain : Chain α) (p : Place) : Option ValueKind :=
  chain[p.1]?.bind fun n => n.kindAt? p.2

/-- The value in the slot at a place. -/
def valueAt? (chain : Chain α) (p : Place) : Option Value :=
  chain[p.1]?.bind fun n => n.value? p.2

/-- The values in the slots of a chain, in order of their places. -/
def values (chain : Chain α) : List Value := chain.flatMap fun n => n.slots.filterMap Slot.value?

/-- One chain is another with a value put at a place. The place was empty and of the kind of the
    value; all places of this kind in the nodes after it, and before it in its own node, were
    taken. -/
structure Puts (v : Value) (chain : Chain α) (p : Place) (kind : ValueKind)
    (chain' : Chain α) : Prop where
  fits : v.kind = .value kind
  place : chain.kindAt? p = some kind
  free : chain.valueAt? p = none
  kinds : ∀ q, chain'.kindAt? q = chain.kindAt? q
  values : ∀ q, chain'.valueAt? q = if q = p then some v else chain.valueAt? q
  full : ∀ k j, (p.1 < k ∨ p.1 = k ∧ j < p.2) → chain.kindAt? (k, j) = some kind →
    (chain.valueAt? (k, j)).isSome = true

end Chain

/-! ## Nodes -/

/-- Exchanging one entry of a list. -/
theorem getElem?_exchange {β : Type} (before after : List β) (old new : β) (i : Nat) :
    (before ++ new :: after)[i]?
      = if i = before.length then some new else (before ++ old :: after)[i]? := by
  rcases Nat.lt_trichotomy i before.length with hi | rfl | hi
  · rw [if_neg (by omega), List.getElem?_append_left hi, List.getElem?_append_left hi]
  · simp
  · rw [if_neg (by omega), List.getElem?_append_right (by omega),
      List.getElem?_append_right (by omega)]
    obtain ⟨d, hd⟩ : ∃ d, i - before.length = d + 1 := ⟨i - before.length - 1, by omega⟩
    rw [hd, List.getElem?_cons_succ, List.getElem?_cons_succ]

theorem Slot.value?_eq_some_iff {s : Slot} {v : Value} :
    s.value? = some v ↔ s.content = .value v := by
  unfold value?
  split
  · next h => simp [h]
  · next h => simpa using h v

namespace Node

theorem value?_eq (n : Node α) (j : Nat) : n.value? j = n.slots[j]?.bind Slot.value? := by
  unfold value?
  split
  · next kind required v h => simp [h, Slot.value?]
  · next h =>
    symm
    rw [Option.bind_eq_none_iff]
    intro s hs
    rw [Option.eq_none_iff_forall_ne_some]
    intro v hv
    obtain ⟨kind, required, content⟩ := s
    obtain rfl := Slot.value?_eq_some_iff.1 hv
    exact h kind required v hs

/-- Another content in one slot changes no kind, and no value but the one there. -/
theorem refill_places (n : Node α) {before after : List Slot} {s : Slot} (content : Content)
    (hslots : n.slots = before ++ s :: after) :
    let n' : Node α := { n with slots := before ++ { s with content := content } :: after }
    (∀ i, n'.kindAt? i = n.kindAt? i)
      ∧ ∀ i, n'.value? i
        = if i = before.length then Slot.value? { s with content := content } else n.value? i := by
  constructor
  · intro i
    simp only [kindAt?, ← List.getElem?_map, hslots, List.map_append, List.map_cons]
  · intro i
    simp only [value?_eq, hslots]
    rw [getElem?_exchange before after s]
    split <;> rfl

theorem value?_ofDefinition (d : Definition α) (j : Nat) : (ofDefinition d).value? j = none := by
  simp [value?_eq, ofDefinition, Option.bind_map, Function.comp_def, Slot.ofSpec, Slot.value?]

/-- A slot that is not open holds a value, if nothing is awaited yet. -/
theorem isSome_value?_of_not_isOpenFor {n : Node α} (hnone : Slot.NoneAwaited n.slots) {i : Nat}
    {s : Slot} (hs : n.slots[i]? = some s) (hopen : s.isOpenFor (.value s.kind) = false) :
    (n.value? i).isSome = true := by
  rw [value?_eq, hs, Option.bind_some]
  cases hcontent : s.content with
  | empty =>
    rw [Slot.isOpenFor_iff.2 ⟨rfl, hcontent⟩] at hopen
    cases hopen
  | value v => simp [Slot.value?, hcontent]
  | awaited => exact absurd hcontent (hnone s (List.mem_of_getElem? hs))

/-- A node that takes no value of a kind has a value in every slot of the kind. -/
theorem isSome_value?_of_take?_eq_none {n : Node α} {v : Value} {kind : ValueKind}
    (h : n.take? v = none) (hkind : v.kind = .value kind) (hnone : Slot.NoneAwaited n.slots)
    {i : Nat} (hi : n.kindAt? i = some kind) : (n.value? i).isSome = true := by
  obtain ⟨s, hs, rfl⟩ := Option.map_eq_some_iff.1 hi
  refine isSome_value?_of_not_isOpenFor hnone hs ?_
  rw [← hkind]
  exact take?_eq_none_iff.1 h s (List.mem_of_getElem? hs)

/-- A value goes into a slot of its kind; all slots of that kind before it are taken. -/
theorem take?_places {n n' : Node α} {v : Value} (h : n.take? v = some n')
    (hnone : Slot.NoneAwaited n.slots) :
    ∃ j kind, v.kind = .value kind ∧ n.kindAt? j = some kind ∧ n.value? j = none
      ∧ (∀ i, n'.kindAt? i = n.kindAt? i)
      ∧ (∀ i, n'.value? i = if i = j then some v else n.value? i)
      ∧ ∀ i < j, n.kindAt? i = some kind → (n.value? i).isSome = true := by
  obtain ⟨before, s, after, hslots, hs, hbefore, rfl⟩ := take?_eq_some_iff.1 h
  obtain ⟨hkind, hempty⟩ := Slot.isOpenFor_iff.1 hs
  have hat : n.slots[before.length]? = some s := by simp [hslots]
  obtain ⟨hkinds, hvalues⟩ := n.refill_places (.value v) hslots
  refine ⟨before.length, s.kind, hkind.symm, by rw [kindAt?, hat]; rfl, ?_, hkinds, hvalues, ?_⟩
  · rw [value?_eq, hat]
    simp [Slot.value?, hempty]
  · intro i hi hki
    obtain ⟨t, ht, htkind⟩ := Option.map_eq_some_iff.1 hki
    refine isSome_value?_of_not_isOpenFor hnone ht ?_
    rw [hslots, List.getElem?_append_left hi] at ht
    rw [htkind, hkind]
    exact hbefore t (List.mem_of_getElem? ht)

/-- The same node but for what it awaits. -/
structure SameValues (n n' : Node α) : Prop where
  definition : n'.definition = n.definition
  kinds : ∀ i, n'.kindAt? i = n.kindAt? i
  values : ∀ i, n'.value? i = n.value? i
  all : n'.slots.filterMap Slot.value? = n.slots.filterMap Slot.value?

theorem SameValues.refl (n : Node α) : n.SameValues n := ⟨rfl, fun _ => rfl, fun _ => rfl, rfl⟩

theorem sameValues_await (n : Node α) (kind : ValueKind) : n.SameValues (n.await kind) := by
  rcases n.await_cases kind with ⟨-, heq⟩ | ⟨before, s, after, hslots, hs, -, heq⟩
  · rw [heq]
    exact .refl n
  · obtain ⟨hkinds, hvalues⟩ := n.refill_places .awaited hslots
    have hempty : s.value? = none := by simp [Slot.value?, (Slot.isOpenFor_iff.1 hs).2]
    have hawaited : Slot.value? { s with content := .awaited } = none := rfl
    rw [heq]
    refine ⟨rfl, hkinds, fun i => ?_, ?_⟩
    · rw [hvalues]
      split
      · next hi => simp [hi, value?_eq, hslots, hempty, hawaited]
      · rfl
    · rw [hslots]
      simp [hempty, hawaited]

end Node

/-! ## Chains -/

namespace Chain

/-- A new node adds no value. -/
theorem valueAt?_append_ofDefinition (chain : Chain α) (d : Definition α) (p : Place) :
    valueAt? (chain ++ [.ofDefinition d]) p = chain.valueAt? p := by
  unfold valueAt?
  rcases Nat.lt_trichotomy p.1 chain.length with hp | hp | hp
  · rw [List.getElem?_append_left hp]
  · simp [hp, Node.value?_ofDefinition]
  · rw [List.getElem?_eq_none (by simp; omega), List.getElem?_eq_none (by omega)]

theorem lt_length_of_isSome_valueAt? {chain : Chain α} {p : Place}
    (h : (chain.valueAt? p).isSome = true) : p.1 < chain.length := by
  obtain ⟨v, hv⟩ := Option.isSome_iff_exists.1 h
  obtain ⟨n, hn, -⟩ := Option.bind_eq_some_iff.1 hv
  exact (List.getElem?_eq_some_iff.1 hn).1

theorem kindAt?_append_of_lt {chain : Chain α} {n : Node α} {p : Place}
    (hp : p.1 < chain.length) : kindAt? (chain ++ [n]) p = chain.kindAt? p := by
  rw [kindAt?, kindAt?, List.getElem?_append_left hp]

theorem map_definition_of_bind? {v : Value} {opened opened' : List (Node α)}
    (h : bind? v opened = some opened') :
    opened'.map Node.definition = opened.map Node.definition := by
  obtain ⟨inner, n, n', outer, rfl, hn, -, rfl⟩ := bind?_eq_some_iff.1 h
  obtain ⟨before, s, after, -, -, -, rfl⟩ := Node.take?_eq_some_iff.1 hn
  simp

theorem length_of_bind? {v : Value} {opened opened' : List (Node α)}
    (h : bind? v opened = some opened') : opened'.length = opened.length := by
  simpa using congrArg List.length (map_definition_of_bind? h)

/-- Binding a value puts it into the open nodes. -/
theorem puts_of_bind? {v : Value} {opened opened' : List (Node α)}
    (h : bind? v opened = some opened') (hnone : ∀ n ∈ opened, Slot.NoneAwaited n.slots) :
    ∃ p kind, p.1 < opened.length ∧ Puts v opened.reverse p kind opened'.reverse := by
  obtain ⟨inner, n, n', outer, rfl, hn, hinner, rfl⟩ := bind?_eq_some_iff.1 h
  obtain ⟨j, kind, hkind, hj, hfree, hkinds, hvalues, hfull⟩ :=
    Node.take?_places hn (hnone n (by simp))
  have hreverse : ∀ m : Node α,
      (inner ++ m :: outer).reverse = outer.reverse ++ m :: inner.reverse := fun m => by simp
  have hat : (outer.reverse ++ n :: inner.reverse)[outer.length]? = some n := by simp
  refine ⟨(outer.length, j), kind, by simp; omega, ?_⟩
  rw [hreverse, hreverse]
  constructor
  case fits => exact hkind
  case place => rw [kindAt?, hat]; exact hj
  case free => rw [valueAt?, hat]; exact hfree
  case kinds =>
    intro q
    unfold kindAt?
    rw [getElem?_exchange _ _ n]
    split
    · next hq => simp [hq, hkinds]
    · rfl
  case values =>
    intro q
    unfold valueAt?
    rw [getElem?_exchange _ _ n]
    by_cases hq : q.1 = outer.reverse.length
    · rw [List.length_reverse] at hq
      simp only [hq, List.length_reverse, if_true, Option.bind_some, hvalues, hat, Prod.ext_iff,
        true_and]
    · rw [if_neg hq, if_neg]
      rintro rfl
      simp at hq
  case full =>
    rintro k i (hk | ⟨rfl, hi⟩) hkind'
    -- A node further in was asked first, and had no room.
    · obtain ⟨m, hm, hmkind⟩ := Option.bind_eq_some_iff.1 hkind'
      have hmem : m ∈ inner := by
        obtain ⟨d, hd⟩ : ∃ d, k - outer.reverse.length = d + 1 :=
          ⟨k - outer.reverse.length - 1, by simp at hk ⊢; omega⟩
        rw [List.getElem?_append_right (by simp at hk ⊢; omega), hd,
          List.getElem?_cons_succ] at hm
        exact List.mem_reverse.1 (List.mem_of_getElem? hm)
      rw [valueAt?, hm]
      exact Node.isSome_value?_of_take?_eq_none (hinner m hmem) hkind
        (hnone m (List.mem_append_left _ hmem)) hmkind
    · rw [kindAt?, hat] at hkind'
      rw [valueAt?, hat]
      exact hfull i hi hkind'

/-- Closing keeps the nodes but for what they await. -/
theorem sameValues_close (opened : List (Node α)) :
    List.Forall₂ Node.SameValues opened.reverse (close opened) := by
  induction opened using List.reverseRecOn with
  | nil => exact .nil
  | append_singleton opened n ih =>
    rw [close_append_singleton, List.reverse_append]
    refine .cons ?_ ih
    split
    · exact .refl n
    · split
      · exact n.sameValues_await _
      · exact .refl n

theorem places_of_sameValues {chain chain' : Chain α}
    (h : List.Forall₂ Node.SameValues chain chain') :
    chain'.map Node.definition = chain.map Node.definition
      ∧ (∀ p, chain'.kindAt? p = chain.kindAt? p)
      ∧ (∀ p, chain'.valueAt? p = chain.valueAt? p) ∧ values chain' = values chain := by
  induction h with
  | nil => exact ⟨rfl, fun _ => rfl, fun _ => rfl, rfl⟩
  | cons hn _ ih =>
    obtain ⟨hdefinitions, hkinds, hvalues, hall⟩ := ih
    refine ⟨by simp [hn.definition, hdefinitions], ?_, ?_, by
      simp only [values, List.flatMap_cons] at hall ⊢
      rw [hn.all, hall]⟩
    · rintro ⟨k, j⟩
      cases k with
      | zero => exact hn.kinds j
      | succ k => exact hkinds (k, j)
    · rintro ⟨k, j⟩
      cases k with
      | zero => exact hn.values j
      | succ k => exact hvalues (k, j)

theorem length_values_reverse (chain : Chain α) :
    (values chain.reverse).length = chain.values.length := by
  simp [values, List.length_flatMap, List.map_reverse]

theorem values_ofDefinition (d : Definition α) (opened : List (Node α)) :
    values (.ofDefinition d :: opened) = values opened := by
  simp [values, Node.ofDefinition, List.filterMap_map, Function.comp_def, Slot.ofSpec, Slot.value?]

/-- Binding a value makes one value more. -/
theorem length_values_of_bind? {v : Value} {opened opened' : List (Node α)}
    (h : bind? v opened = some opened') : (values opened').length = (values opened).length + 1 := by
  obtain ⟨inner, n, n', outer, rfl, hn, -, rfl⟩ := bind?_eq_some_iff.1 h
  obtain ⟨before, s, after, hslots, hs, -, rfl⟩ := Node.take?_eq_some_iff.1 hn
  have hempty : s.value? = none := by simp [Slot.value?, (Slot.isOpenFor_iff.1 hs).2]
  have hvalue : Slot.value? { s with content := .value v } = some v := rfl
  simp only [values, List.flatMap_append, List.flatMap_cons, hslots, List.filterMap_append,
    List.filterMap_cons, hempty, hvalue, List.length_append, List.length_cons]
  omega

end Chain

end CueScript

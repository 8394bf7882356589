import CueScript.Command.Compile
import Mathlib.Data.List.Basic

set_option autoImplicit false

/-! # Filling slots

Values and awaited products go into the first open slot of their kind, and values into the
innermost node that has one. Both are a search for the first place that can be changed
(`changeFirst?`), which cuts a list at the place that it finds: what stands before has no room, and
nothing but that place changes. -/

namespace CueScript

variable {α : Type}

/-! ## The first place -/

section FirstPlace

variable {β : Type}

/-- Change the first element that a function has an answer for. -/
def changeFirst? (f : β → Option β) : List β → Option (List β)
  | [] => none
  | x :: rest =>
    match f x with
    | some y => some (y :: rest)
    | none => (changeFirst? f rest).map (x :: ·)

variable {f : β → Option β} {l l' : List β}

theorem changeFirst?_cons_of_some {x y : β} (h : f x = some y) (rest : List β) :
    changeFirst? f (x :: rest) = some (y :: rest) := by
  simp only [changeFirst?, h]

theorem changeFirst?_cons_of_none {x : β} (h : f x = none) (rest : List β) :
    changeFirst? f (x :: rest) = (changeFirst? f rest).map (x :: ·) := by
  simp only [changeFirst?, h]

/-- The search cuts the list at the first element with an answer. -/
theorem changeFirst?_eq_some_iff :
    changeFirst? f l = some l'
      ↔ ∃ before x y after, l = before ++ x :: after ∧ f x = some y
        ∧ (∀ z ∈ before, f z = none) ∧ l' = before ++ y :: after := by
  constructor
  · intro h
    induction l generalizing l' with
    | nil => cases h
    | cons x rest ih =>
      rcases hx : f x with _ | y
      · rw [changeFirst?_cons_of_none hx] at h
        obtain ⟨rest', hrest, rfl⟩ := Option.map_eq_some_iff.1 h
        obtain ⟨before, z, y, after, rfl, hz, hbefore, rfl⟩ := ih hrest
        exact ⟨x :: before, z, y, after, rfl, hz, List.forall_mem_cons.2 ⟨hx, hbefore⟩, rfl⟩
      · rw [changeFirst?_cons_of_some hx, Option.some.injEq] at h
        exact ⟨[], x, y, rest, rfl, hx, by simp, h.symm⟩
  · rintro ⟨before, x, y, after, rfl, hx, hbefore, rfl⟩
    induction before with
    | nil => exact changeFirst?_cons_of_some hx after
    | cons z before ih =>
      rw [List.forall_mem_cons] at hbefore
      rw [List.cons_append, changeFirst?_cons_of_none hbefore.1, ih hbefore.2]
      rfl

theorem changeFirst?_eq_none_iff : changeFirst? f l = none ↔ ∀ x ∈ l, f x = none := by
  induction l with
  | nil => simp [changeFirst?]
  | cons x rest ih =>
    rcases hx : f x with _ | y
    · simp [changeFirst?_cons_of_none hx, hx, ih]
    · simp [changeFirst?_cons_of_some hx, hx]

end FirstPlace

/-! ## Slots -/

namespace Slot

/-- What a slot declares. -/
def spec (s : Slot) : SlotSpec := ⟨s.kind, s.required⟩

theorem isOpenFor_iff {s : Slot} {kind : Kind} :
    s.isOpenFor kind = true ↔ .value s.kind = kind ∧ s.content = .empty := by
  simp [isOpenFor, isEmpty]

/-- The slot with something in it, if it is empty and of the kind. -/
def fill? (kind : Kind) (content : Content) (s : Slot) : Option Slot :=
  if s.isOpenFor kind then some { s with content := content } else none

theorem fill?_eq_some_iff {kind : Kind} {content : Content} {s s' : Slot} :
    s.fill? kind content = some s'
      ↔ s.isOpenFor kind = true ∧ s' = { s with content := content } := by
  by_cases hopen : s.isOpenFor kind = true
  · rw [fill?, if_pos hopen, Option.some.injEq, and_iff_right hopen]
    exact eq_comm
  · rw [fill?, if_neg hopen]
    simp [hopen]

theorem fill?_eq_none_iff {kind : Kind} {content : Content} {s : Slot} :
    s.fill? kind content = none ↔ s.isOpenFor kind = false := by
  simp [fill?]

theorem fillFirst?_eq (kind : Kind) (content : Content) :
    fillFirst? kind content = changeFirst? (fill? kind content) := by
  funext slots
  induction slots with
  | nil => rfl
  | cons s rest ih =>
    rw [fillFirst?, ih]
    split
    · next hopen => rw [changeFirst?_cons_of_some (fill?_eq_some_iff.2 ⟨hopen, rfl⟩)]
    · next hopen =>
      rw [changeFirst?_cons_of_none (fill?_eq_none_iff.2 (Bool.not_eq_true _ ▸ hopen))]

/-- Filling cuts the slots at the first open one of the kind. -/
theorem fillFirst?_eq_some_iff {kind : Kind} {content : Content} {slots slots' : List Slot} :
    fillFirst? kind content slots = some slots'
      ↔ ∃ before s after, slots = before ++ s :: after ∧ s.isOpenFor kind = true
        ∧ (∀ t ∈ before, t.isOpenFor kind = false)
        ∧ slots' = before ++ { s with content := content } :: after := by
  simp only [fillFirst?_eq, changeFirst?_eq_some_iff, fill?_eq_some_iff, fill?_eq_none_iff]
  constructor
  · rintro ⟨before, s, _, after, hslots, ⟨hopen, rfl⟩, hbefore, hslots'⟩
    exact ⟨before, s, after, hslots, hopen, hbefore, hslots'⟩
  · rintro ⟨before, s, after, hslots, hopen, hbefore, hslots'⟩
    exact ⟨before, s, _, after, hslots, ⟨hopen, rfl⟩, hbefore, hslots'⟩

/-- Filling fails when there is no open slot of the kind. -/
theorem fillFirst?_eq_none_iff {kind : Kind} {content : Content} {slots : List Slot} :
    fillFirst? kind content slots = none ↔ ∀ s ∈ slots, s.isOpenFor kind = false := by
  simp only [fillFirst?_eq, changeFirst?_eq_none_iff, fill?_eq_none_iff]

end Slot

/-! ## Nodes -/

namespace Node

theorem take?_eq_some_iff {n n' : Node α} {v : Value} :
    n.take? v = some n'
      ↔ ∃ before s after, n.slots = before ++ s :: after ∧ s.isOpenFor v.kind = true
        ∧ (∀ t ∈ before, t.isOpenFor v.kind = false)
        ∧ n' = { n with slots := before ++ { s with content := .value v } :: after } := by
  rw [take?, Option.map_eq_some_iff]
  constructor
  · rintro ⟨slots, hfill, rfl⟩
    obtain ⟨before, s, after, hslots, hs, hbefore, rfl⟩ := Slot.fillFirst?_eq_some_iff.1 hfill
    exact ⟨before, s, after, hslots, hs, hbefore, rfl⟩
  · rintro ⟨before, s, after, hslots, hs, hbefore, rfl⟩
    exact ⟨_, Slot.fillFirst?_eq_some_iff.2 ⟨before, s, after, hslots, hs, hbefore, rfl⟩, rfl⟩

theorem take?_eq_none_iff {n : Node α} {v : Value} :
    n.take? v = none ↔ ∀ s ∈ n.slots, s.isOpenFor v.kind = false := by
  rw [take?, Option.map_eq_none_iff, Slot.fillFirst?_eq_none_iff]

/-- A node that awaits a value does so in its first empty slot of the kind, if there is one. -/
theorem await_cases (n : Node α) (kind : ValueKind) :
    ((∀ s ∈ n.slots, s.isOpenFor (.value kind) = false) ∧ n.await kind = n)
      ∨ ∃ before s after, n.slots = before ++ s :: after ∧ s.isOpenFor (.value kind) = true
        ∧ (∀ t ∈ before, t.isOpenFor (.value kind) = false)
        ∧ n.await kind = { n with slots := before ++ { s with content := .awaited } :: after } := by
  unfold await
  split
  · next slots hfill =>
    obtain ⟨before, s, after, hslots, hs, hbefore, rfl⟩ := Slot.fillFirst?_eq_some_iff.1 hfill
    exact Or.inr ⟨before, s, after, hslots, hs, hbefore, rfl⟩
  · next hfill => exact Or.inl ⟨Slot.fillFirst?_eq_none_iff.1 hfill, rfl⟩

end Node

/-! ## Open nodes -/

theorem Chain.bind?_eq (v : Value) :
    (Chain.bind? v : List (Node α) → Option (List (Node α)))
      = changeFirst? fun n => n.take? v := by
  funext opened
  induction opened with
  | nil => rfl
  | cons n outer ih =>
    rw [bind?, changeFirst?, ih]
    rcases n.take? v with _ | n' <;> rfl

/-- A value goes into the innermost node with room for it. -/
theorem Chain.bind?_eq_some_iff {v : Value} {opened opened' : List (Node α)} :
    Chain.bind? v opened = some opened'
      ↔ ∃ inner n n' outer, opened = inner ++ n :: outer ∧ n.take? v = some n'
        ∧ (∀ m ∈ inner, m.take? v = none) ∧ opened' = inner ++ n' :: outer := by
  rw [bind?_eq, changeFirst?_eq_some_iff]

/-- A value has nowhere to go if no node has room for it. -/
theorem Chain.bind?_eq_none_iff {v : Value} {opened : List (Node α)} :
    Chain.bind? v opened = none ↔ ∀ n ∈ opened, n.take? v = none := by
  rw [bind?_eq, changeFirst?_eq_none_iff]

/-- What a node keeps when it takes a value, all open nodes keep when it is bound. -/
theorem Chain.bind?_keeps {P : Node α → Prop} {v : Value} {opened opened' : List (Node α)}
    (h : Chain.bind? v opened = some opened')
    (take : ∀ n n' : Node α, P n → n.take? v = some n' → P n') (hopened : ∀ n ∈ opened, P n) :
    ∀ n ∈ opened', P n := by
  obtain ⟨inner, n, n', outer, rfl, hn, -, rfl⟩ := Chain.bind?_eq_some_iff.1 h
  simp only [List.forall_mem_append, List.forall_mem_cons] at hopened ⊢
  exact ⟨hopened.1, take n n' hopened.2.1 hn, hopened.2.2⟩

end CueScript

import CueScript.Command.Outline
import Mathlib.Data.List.Forall2

set_option autoImplicit false

/-! # The tree of a chain tells the chain

The tree shows a node by its keyword, its kind and its slots, and shows of these everything: two
chains with the same tree agree node by node in all three, whatever vocabularies they come from
(`toJson_eq_iff`). A slot that awaits a value is shown by a mark that is a plain text. No value can
be mistaken for it, not even a text that reads like the mark, because every value is shown as an
object that says of what sort it is. -/

namespace CueScript

/-! ## Names -/

theorem LengthUnit.code_injective : Function.Injective LengthUnit.code := by
  intro u u' h
  cases u <;> cases u' <;> first | rfl | exact absurd h (by decide)

theorem ValueKind.code_injective : Function.Injective ValueKind.code := fun _ _ h =>
  Kind.value.inj (Kind.code_injective h)

/-! ## What a slot holds -/

theorem Value.exists_toJson_eq (v : Value) : ∃ members, v.toJson = .object members := by
  cases v <;> exact ⟨_, rfl⟩

/-- A value is told by its object, of which the first member says what sort of value it is. -/
theorem Value.toJson_injective : Function.Injective Value.toJson := by
  intro v w h
  cases v with
  | word k s =>
    cases w with
    | word k' s' =>
      simp only [toJson, Json.object.injEq, List.cons.injEq, Prod.mk.injEq, Json.string.injEq,
        true_and, and_true] at h
      rw [Kind.code_injective h.1, h.2]
    | _ => simp [toJson] at h
  | text t =>
    cases w with
    | text t' =>
      simp only [toJson, Json.object.injEq, List.cons.injEq, Prod.mk.injEq, Json.string.injEq,
        true_and, and_true] at h
      rw [h]
    | _ => simp [toJson] at h
  | dimension d =>
    cases w with
    | dimension d' =>
      obtain ⟨amount, unit⟩ := d
      obtain ⟨amount', unit'⟩ := d'
      simp only [toJson, Json.object.injEq, List.cons.injEq, Prod.mk.injEq, Json.string.injEq,
        Json.real.injEq, true_and, and_true] at h
      rw [h.1, LengthUnit.code_injective h.2]
    | _ => simp [toJson] at h
  | color c =>
    cases w with
    | color c' =>
      obtain ⟨red, green, blue⟩ := c
      obtain ⟨red', green', blue'⟩ := c'
      simp only [toJson, Json.count, Json.object.injEq, List.cons.injEq, Prod.mk.injEq,
        Json.integer.injEq, Int.natCast_inj, UInt8.toNat_inj, true_and, and_true] at h
      obtain ⟨hred, hgreen, hblue⟩ := h
      rw [hred, hgreen, hblue]
    | _ => simp [toJson] at h

/-- Nothing, a value and an awaited value are shown in three ways that cannot be mistaken. -/
theorem Content.toJson_injective : Function.Injective Content.toJson := by
  intro a b h
  cases a with
  | empty =>
    cases b with
    | empty => rfl
    | value w =>
      obtain ⟨members, hw⟩ := w.exists_toJson_eq
      simp [toJson, hw] at h
    | awaited => simp [toJson] at h
  | value v =>
    obtain ⟨members, hv⟩ := v.exists_toJson_eq
    cases b with
    | value w => rw [Value.toJson_injective h]
    | empty => simp [toJson, hv] at h
    | awaited => simp [toJson, hv] at h
  | awaited =>
    cases b with
    | awaited => rfl
    | empty => simp [toJson] at h
    | value w =>
      obtain ⟨members, hw⟩ := w.exists_toJson_eq
      simp [toJson, hw] at h

theorem Slot.toJson_injective : Function.Injective Slot.toJson := by
  intro s t h
  obtain ⟨kind, required, content⟩ := s
  obtain ⟨kind', required', content'⟩ := t
  simp only [toJson, Json.object.injEq, List.cons.injEq, Prod.mk.injEq, Json.string.injEq,
    Json.bool.injEq, true_and, and_true] at h
  obtain ⟨hkind, hrequired, hcontent⟩ := h
  rw [ValueKind.code_injective hkind, hrequired, Content.toJson_injective hcontent]

/-! ## Chains -/

/-- Two nodes, perhaps of different vocabularies, that look the same: the same keyword, the same
    kind, and the same slots with the same in them. -/
structure Node.LooksLike {α β : Type} (n : Node α) (m : Node β) : Prop where
  keyword : n.keyword = m.keyword
  kind : n.kind = m.kind
  slots : n.slots = m.slots

/-- **The tree determines the chain.** The trees of two chains, of any vocabularies, are the same if
    and only if the chains are of the same length and look the same node by node: each node has the
    keyword and the kind of the other, and the same slots, with their kinds, whether they are
    required, and what they hold, be it nothing, a value or one that is awaited. -/
theorem Chain.toJson_eq_iff {α β : Type} (chain : Chain α) (other : Chain β) :
    chain.toJson = other.toJson ↔ List.Forall₂ Node.LooksLike chain other := by
  induction chain generalizing other with
  | nil =>
    cases other with
    | nil => simp [toJson]
    | cons m inner => simp [toJson]
  | cons n inner ih =>
    cases other with
    | nil => simp [toJson]
    | cons m inner' =>
      rw [List.forall₂_cons, ← ih]
      simp only [toJson, Json.object.injEq, List.cons.injEq, Prod.mk.injEq, Json.string.injEq,
        Json.array.injEq, true_and, and_true]
      constructor
      · rintro ⟨hkeyword, hkind, hslots, hinner⟩
        exact ⟨⟨hkeyword, Kind.code_injective hkind,
          List.map_injective_iff.2 Slot.toJson_injective hslots⟩, hinner⟩
      · rintro ⟨⟨hkeyword, hkind, hslots⟩, hinner⟩
        exact ⟨hkeyword, congrArg Kind.code hkind, congrArg _ hslots, hinner⟩

end CueScript

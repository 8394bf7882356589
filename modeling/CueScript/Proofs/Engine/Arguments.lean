import CueScript.Engine.Execute
import CueScript.Proofs.Command.WellFormed
import Mathlib.Data.List.Pairwise

set_option autoImplicit false

/-! # What nodes need when they run

The arguments of a node are collected slot by slot, and the product of the inner chain goes to the
first slot that awaits it. In a well-formed node that is the only one, so each argument can be told
from its slot alone (`collectArgs_eq`). A well-formed event has something to bind to. -/

namespace CueScript

variable {α : Type}

/-! ## Arguments -/

/-- The argument that a slot stands for, if the inner chain returned `produced`. -/
def Slot.argument (produced : Option Value) (s : Slot) : Option Value :=
  match s.content with
  | .empty => none
  | .value v => some v
  | .awaited => produced.filter fun v => v.kind = .value s.kind

/-- An argument is the value in the slot, or the product that the slot awaits. -/
theorem Slot.argument_eq_some_iff {produced : Option Value} {s : Slot} {v : Value} :
    s.argument produced = some v ↔ s.content = .value v
      ∨ s.content = .awaited ∧ produced = some v ∧ v.kind = .value s.kind := by
  unfold argument
  split
  · next h => simp [h]
  · next h => simp [h]
  · next h => simp [h, Option.filter_eq_some_iff]

namespace Node

/-- The arguments of a node whose inner chain returned `produced`. -/
def arguments (n : Node α) (produced : Option Value) : Args := n.slots.map (Slot.argument produced)

/-- The kind of the first required slot that would get no argument. -/
def unmet? (n : Node α) (produced : Option Value) : Option ValueKind :=
  (n.slots.find? fun s => s.required && (s.argument produced).isNone).map Slot.kind

/-- What an event binds to: its fixed target, or the element in its only slot. -/
inductive BindsTo (n : Node α) : Target → Prop where
  | fixed (target : Target) (role : n.definition.role = .event (.fixed target)) : BindsTo n target
  | element (w : String) (role : n.definition.role = .event .namedElement)
      (slots : n.slots = [⟨.element, true, .value (.word (.value .element) w)⟩]) :
      BindsTo n (.element w)

end Node

/-! ## Well-formed nodes -/

/-- Slots of which nothing is awaited take nothing from the inner chain. -/
theorem Node.collectArgs_of_noneAwaited {slots : List Slot} (h : Slot.NoneAwaited slots)
    (keyword producer : String) (produced product : Option Value) :
    collectArgs keyword producer produced slots = .ok (slots.map (Slot.argument product)) := by
  induction slots with
  | nil => rfl
  | cons s rest ih =>
    obtain ⟨hs, hrest⟩ := List.forall_mem_cons.1 h
    cases hcontent : s.content with
    | empty => simp [collectArgs, Slot.argument, hcontent, ih hrest, Except.map]
    | value v => simp [collectArgs, Slot.argument, hcontent, ih hrest, Except.map]
    | awaited => exact absurd hcontent hs

/-- At most one slot of a well-formed node awaits the product. -/
theorem Node.Awaits.once {n : Node α} {inner : Chain α} (h : n.Awaits inner) :
    n.slots.Pairwise fun s t => s.content = .awaited → t.content ≠ .awaited := by
  cases h with
  | nothing none _ =>
    exact List.pairwise_of_forall_mem_list fun s _ t ht _ => none t ht
  | product before after s slots awaited noneBefore noneAfter _ _ _ =>
    rw [slots, List.pairwise_append, List.pairwise_cons]
    refine ⟨?_, ⟨?_, ?_⟩, ?_⟩
    · exact List.pairwise_of_forall_mem_list fun _ _ t ht _ => noneBefore t ht
    · exact fun t ht _ => noneAfter t ht
    · exact List.pairwise_of_forall_mem_list fun _ _ t ht _ => noneAfter t ht
    · exact fun t ht _ _ hawaited => absurd hawaited (noneBefore t ht)

/-- Slots of which nothing is awaited lack nothing, if no required one is empty. -/
theorem Slot.NoneAwaited.find?_eq_none {slots : List Slot} (h : NoneAwaited slots)
    (hcomplete : ∀ s ∈ slots, s.required = true → s.content ≠ .empty) (produced : Option Value) :
    (slots.find? fun s => s.required && (s.argument produced).isNone) = none := by
  rw [List.find?_eq_none]
  intro s hs hlacks
  rw [Bool.and_eq_true, Option.isNone_iff_eq_none] at hlacks
  obtain ⟨hrequired, hnone⟩ := hlacks
  cases hcontent : s.content with
  | empty => exact hcomplete s hs hrequired hcontent
  | value v => simp [argument, hcontent] at hnone
  | awaited => exact h s hs hcontent

/-- The arguments of a node can be told slot by slot when at most one of them awaits the product and
    no required slot is empty. -/
theorem Node.collectArgs_eq {slots : List Slot}
    (honce : slots.Pairwise fun s t => s.content = .awaited → t.content ≠ .awaited)
    (hcomplete : ∀ s ∈ slots, s.required = true → s.content ≠ .empty)
    (keyword producer : String) (produced : Option Value) :
    collectArgs keyword producer produced slots
      = match slots.find? fun s => s.required && (s.argument produced).isNone with
        | some s => .error (.missingValue keyword s.kind producer)
        | none => .ok (slots.map (Slot.argument produced)) := by
  induction slots with
  | nil => rfl
  | cons s rest ih =>
    obtain ⟨hs, hrest⟩ := List.pairwise_cons.1 honce
    obtain ⟨hsc, hrestc⟩ := List.forall_mem_cons.1 hcomplete
    -- A slot that lacks nothing leaves everything to those after it.
    have hskip : ∀ argument, s.argument produced = argument →
        (s.required = true → argument.isSome = true) →
        (match (s :: rest).find? fun s => s.required && (s.argument produced).isNone with
          | some s => .error (.missingValue keyword s.kind producer)
          | none => .ok ((s :: rest).map (Slot.argument produced)))
          = (collectArgs keyword producer produced rest).map (argument :: ·) := by
      intro argument hargument hsome
      have hmet : (s.required && (s.argument produced).isNone) = false := by
        rw [hargument]
        cases hrequired : s.required with
        | false => rfl
        | true => simpa using hsome hrequired
      rw [List.find?_cons_of_neg (by simp [hmet]), ih hrest hrestc, List.map_cons, hargument]
      split <;> rfl
    cases hcontent : s.content with
    | empty =>
      rw [hskip none (by simp [Slot.argument, hcontent])
        (fun hrequired => absurd hcontent (hsc hrequired))]
      simp [collectArgs, hcontent]
    | value v =>
      rw [hskip (some v) (by simp [Slot.argument, hcontent]) (fun _ => rfl)]
      simp [collectArgs, hcontent]
    | awaited =>
      have hnone : Slot.NoneAwaited rest := fun t ht => hs t ht hcontent
      have hcollect : collectArgs keyword producer produced (s :: rest)
          = if s.required && (s.argument produced).isNone then
              .error (.missingValue keyword s.kind producer)
            else (collectArgs keyword producer none rest).map (s.argument produced :: ·) := by
        rw [Bool.and_comm]
        simp only [collectArgs, hcontent, Slot.argument]
      rw [hcollect, collectArgs_of_noneAwaited hnone _ _ _ produced, List.find?_cons]
      cases s.required && (s.argument produced).isNone with
      | true => rfl
      | false =>
        simp only [hnone.find?_eq_none hrestc produced]
        rfl

namespace Node

theorem role_of_isEvent {n : Node α} (hn : n.isEvent = true) :
    ∃ role, n.definition.role = .event role := by
  unfold isEvent at hn
  split at hn
  · next role hrole => exact ⟨role, hrole⟩
  · cases hn

theorem function?_of_isEvent {n : Node α} (hn : n.isEvent = true) :
    n.definition.function? = none := by
  obtain ⟨role, hrole⟩ := role_of_isEvent hn
  rw [Definition.function?, hrole]

theorem Sound.function?_eq_some {ds : List (Definition α)} {n : Node α} (h : n.Sound ds)
    (hn : n.isEvent = false) : ∃ role, n.definition.function? = some role := by
  rcases Definition.function_or_event h.invocable with ⟨-, role, hrole⟩ | ⟨-, role, hrole⟩
  · exact ⟨role, by rw [Definition.function?, hrole]⟩
  · simp [isEvent, hrole] at hn

/-- Events produce nothing. -/
theorem BindsTo.produces?_eq_none {n : Node α} {target : Target} (h : n.BindsTo target) :
    n.definition.produces? = none := by
  cases h with
  | fixed _ role => rw [Definition.produces?, Definition.function?, role]; rfl
  | element _ role _ => rw [Definition.produces?, Definition.function?, role]; rfl

/-- A well-formed event has something to bind to. -/
theorem WellFormed.bindsTo {ds : List (Definition α)} {n : Node α} {inner : Chain α}
    (h : n.WellFormed ds inner) {role : EventRole} (hrole : n.definition.role = .event role) :
    ∃ target, n.target? role = some target ∧ n.BindsTo target := by
  cases role with
  | fixed target => exact ⟨target, rfl, .fixed target hrole⟩
  | namedElement =>
    have hdeclared := h.sound.declared
    simp only [Definition.slots, hrole] at hdeclared
    obtain ⟨⟨kind, required, content⟩, hslots, hspec⟩ := List.map_eq_singleton_iff.1 hdeclared
    cases hspec
    have hmem : (⟨.element, true, content⟩ : Slot) ∈ n.slots := by simp [hslots]
    cases content with
    | empty => exact absurd rfl (h.complete _ hmem rfl)
    | awaited =>
      cases h.awaits with
      | nothing none _ => exact absurd rfl (none _ hmem)
      | product _ _ _ _ _ _ _ function _ _ => simp [Node.kind, Definition.kind, hrole] at function
    | value v =>
      have hkind : v.kind = .value .element := h.sound.typed _ hmem v rfl
      obtain ⟨w, rfl⟩ := Value.eq_word_of_kind hkind (by decide)
      exact ⟨.element w, by simp [target?, value?, hslots], .element w hrole hslots⟩

end Node

end CueScript

import CueScript.Proofs.Engine.TypedCalls

set_option autoImplicit false

/-! # The history of an event loop

A program executes commands on an event loop, subscribes and drops bindings, and raises signals, in
any order. The event loop numbers the bindings as they come, so at every point they stand in the
order of their numbers, and the next number is beyond all of them. Every body that the event loop
holds is well-formed, as it is a part of some compiled command (`LoopStep.sound_takeAll`). -/

namespace CueScript

variable {α σ : Type}

namespace EventLoop

/-! ## Numbers -/

@[simp] theorem issued_subscribe (b : Binding α) (loop : EventLoop α) :
    (loop.subscribe b).2.issued = loop.issued + 1 := rfl

/-- Bindings stand in the order of their numbers, all of which were given. -/
structure Ordered (loop : EventLoop α) : Prop where
  increasing : loop.bindings.keys.Pairwise (· < ·)
  given : ∀ id ∈ loop.bindings.keys, id ≤ loop.issued

theorem ordered_empty : (empty : EventLoop α).Ordered := by
  constructor <;> simp [empty, Table.empty, Table.keys]

namespace Ordered

variable {loop : EventLoop α}

/-- A new binding goes to the end. -/
theorem entries_subscribe (h : loop.Ordered) (b : Binding α) :
    (loop.subscribe b).2.bindings.entries = loop.bindings.entries ++ [(loop.issued + 1, b)] := by
  refine Table.entries_insert_of_find?_none (Table.find?_eq_none_iff.2 fun hmem => ?_)
  have := h.given _ hmem
  omega

theorem keys_subscribe (h : loop.Ordered) (b : Binding α) :
    (loop.subscribe b).2.bindings.keys = loop.bindings.keys ++ [loop.issued + 1] := by
  simp [Table.keys, h.entries_subscribe b]

theorem subscribe (h : loop.Ordered) (b : Binding α) : (loop.subscribe b).2.Ordered where
  increasing := by
    rw [h.keys_subscribe b, List.pairwise_append]
    refine ⟨h.increasing, List.pairwise_singleton _ _, fun id hid next hnext => ?_⟩
    rw [List.mem_singleton] at hnext
    have := h.given id hid
    omega
  given := by
    intro id hid
    rw [h.keys_subscribe b, List.mem_append, List.mem_singleton] at hid
    rw [issued_subscribe]
    rcases hid with hid | rfl
    · have := h.given id hid
      omega
    · exact Nat.le_refl _

theorem unsubscribe (h : loop.Ordered) (id : Nat) : (loop.unsubscribe id).2.Ordered := by
  have hkeys : (loop.unsubscribe id).2.bindings.keys.Sublist loop.bindings.keys :=
    (loop.bindings.entries_erase_sublist id).map Prod.fst
  exact ⟨h.increasing.sublist hkeys, fun id' hid' => h.given id' (hkeys.subset hid')⟩

end Ordered

/-- Keep bindings one after the other. -/
def subscribeAll (bs : List (Binding α)) (loop : EventLoop α) : EventLoop α :=
  bs.foldl (fun loop b => (loop.subscribe b).2) loop

theorem subscribeAll_append (bs bs' : List (Binding α)) (loop : EventLoop α) :
    loop.subscribeAll (bs ++ bs') = (loop.subscribeAll bs).subscribeAll bs' :=
  List.foldl_append

/-- A binding is one of those that were kept, or was there before. -/
theorem mem_values_subscribeAll {bs : List (Binding α)} {loop : EventLoop α} {b : Binding α}
    (h : b ∈ (loop.subscribeAll bs).bindings.values) : b ∈ bs ∨ b ∈ loop.bindings.values := by
  induction bs generalizing loop with
  | nil => exact .inr h
  | cons b' rest ih =>
    rcases ih h with h | h
    · exact .inl (List.mem_cons_of_mem _ h)
    · rcases Table.mem_values_insert h with rfl | h
      · exact .inl List.mem_cons_self
      · exact .inr h

/-- New bindings come after those that are there, under the next numbers. -/
theorem Ordered.entries_subscribeAll {loop : EventLoop α} (h : loop.Ordered)
    (bs : List (Binding α)) :
    (loop.subscribeAll bs).bindings.entries
      = loop.bindings.entries ++ (bs.zipIdx (loop.issued + 1)).map Prod.swap := by
  induction bs generalizing loop with
  | nil => simp [subscribeAll]
  | cons b rest ih =>
    have hrest := ih (h.subscribe b)
    rw [h.entries_subscribe b] at hrest
    simpa [subscribeAll, List.zipIdx_cons] using hrest

/-! ## What holds of an event loop -/

theorem Lawful.mono {ds ds' : List (Definition α)} {loop : EventLoop α} (h : loop.Lawful ds)
    (hsub : ds ⊆ ds') : loop.Lawful ds' :=
  fun b hb => (h b hb).mono hsub

/-- Bindings stand in the order of their numbers and hold well-formed bodies. -/
structure Sound (ds : List (Definition α)) (loop : EventLoop α) : Prop where
  ordered : loop.Ordered
  lawful : loop.Lawful ds

theorem Sound.mono {ds ds' : List (Definition α)} {loop : EventLoop α} (h : loop.Sound ds)
    (hsub : ds ⊆ ds') : loop.Sound ds' :=
  ⟨h.ordered, h.lawful.mono hsub⟩

theorem Sound.subscribe {ds : List (Definition α)} {loop : EventLoop α} (h : loop.Sound ds)
    {b : Binding α} (hb : b.body.WellFormed ds) : (loop.subscribe b).2.Sound ds :=
  ⟨h.ordered.subscribe b, h.lawful.subscribe hb⟩

theorem Sound.unsubscribe {ds : List (Definition α)} {loop : EventLoop α} (h : loop.Sound ds)
    (id : Nat) : (loop.unsubscribe id).2.Sound ds :=
  ⟨h.ordered.unsubscribe id, h.lawful.unsubscribe id⟩

theorem sound_empty (ds : List (Definition α)) : (empty : EventLoop α).Sound ds :=
  ⟨ordered_empty, lawful_empty ds⟩

theorem keeps_sound (perform : Performer α σ) (ds : List (Definition α)) :
    (Engine.of perform host).Keeps ds fun w => w.host.Sound ds :=
  ⟨fun _ _ _ _ hw => hw, fun _ _ hb hw => hw.subscribe hb⟩

end EventLoop

/-! ## Steps -/

/-- A part of a compiled command: what some registry compiled some tokens to, or what a node of that
    encloses. -/
structure Part (α : Type) where
  chain : Chain α
  compiled : ∃ (calls : List (Registration α)) (tokens : List String) (c : Command α),
    ((Registry.history calls).2.compile tokens).result = .ok c ∧ chain <:+ c.chain

theorem Part.wellFormed (part : Part α) : ∃ ds, part.chain.WellFormed ds := by
  obtain ⟨calls, tokens, c, hc, outer, houter⟩ := part.compiled
  have hwf := (Registry.holds_history calls).wellFormed_of_compile hc
  rw [← houter] at hwf
  exact ⟨_, hwf.of_append⟩

/-- A step that concerns an event loop. Parts of commands are executed, run or bound on it, such as
    the bodies of bindings that are fired by hand; bindings are subscribed or dropped by hand;
    a signal is raised; or the scene changes by anything else that the program does. -/
inductive LoopStep (α σ : Type) where
  | execute (part : Part α)
  | run (part : Part α)
  | bind (part : Part α)
  | subscribe (signal : String) (target : Target) (body : Part α)
  | unsubscribe (id : Nat)
  | fire (target : Target) (signal : String)
  | elsewhere (scene : σ)

namespace LoopStep

/-- What a step leaves behind. -/
def take (perform : Performer α σ) (w : World (EventLoop α) σ) :
    LoopStep α σ → World (EventLoop α) σ
  | execute part => (part.chain.execute perform EventLoop.host w).2
  | run part =>
    match part.chain with
    | [] => w
    | n :: inner => (n.run perform EventLoop.host w inner).2
  | bind part =>
    match part.chain with
    | [] => w
    | n :: inner => (n.bind EventLoop.host inner w).2
  | subscribe signal target body =>
    { w with host := (w.host.subscribe ⟨signal, target, body.chain⟩).2 }
  | unsubscribe id => { w with host := (w.host.unsubscribe id).2 }
  | fire target signal => (EventLoop.fire perform target signal w).2
  | elsewhere scene => { w with scene := scene }

/-- Take steps one after the other. -/
def takeAll (perform : Performer α σ) (w : World (EventLoop α) σ) (steps : List (LoopStep α σ)) :
    World (EventLoop α) σ :=
  steps.foldl (take perform) w

/-- What was sound stays so beside one more part, which another registry may have compiled: both
    are sound over the definitions of either. -/
theorem sound_beside {loop : EventLoop α} (h : ∃ ds, loop.Sound ds) (part : Part α) :
    ∃ ds, loop.Sound ds ∧ part.chain.WellFormed ds := by
  obtain ⟨ds, hloop⟩ := h
  obtain ⟨ds', hpart⟩ := part.wellFormed
  exact ⟨ds ++ ds', hloop.mono (List.subset_append_left ds ds'),
    hpart.mono (List.subset_append_right ds ds')⟩

theorem sound_take (perform : Performer α σ) {w : World (EventLoop α) σ}
    (h : ∃ ds, w.host.Sound ds) (s : LoopStep α σ) : ∃ ds, (take perform w s).host.Sound ds := by
  cases s with
  | execute part =>
    obtain ⟨ds, hloop, hpart⟩ := sound_beside h part
    exact ⟨ds, (EventLoop.keeps_sound perform ds).executeChain hpart hloop⟩
  | run part =>
    obtain ⟨ds, hloop, hpart⟩ := sound_beside h part
    refine ⟨ds, ?_⟩
    rw [take]
    split
    · exact hloop
    · next heq =>
      rw [heq] at hpart
      exact (EventLoop.keeps_sound perform ds).run hpart hloop
  | bind part =>
    obtain ⟨ds, hloop, hpart⟩ := sound_beside h part
    refine ⟨ds, ?_⟩
    rw [take]
    split
    · exact hloop
    · next heq =>
      rw [heq] at hpart
      exact (EventLoop.keeps_sound perform ds).bind hpart hloop
  | subscribe signal target body =>
    obtain ⟨ds, hloop, hbody⟩ := sound_beside h body
    exact ⟨ds, hloop.subscribe hbody⟩
  | unsubscribe id =>
    obtain ⟨ds, hloop⟩ := h
    exact ⟨ds, hloop.unsubscribe id⟩
  | fire target signal =>
    obtain ⟨ds, hloop⟩ := h
    exact ⟨ds, (EventLoop.keeps_sound perform ds).fireEach
      (fun b hb => hloop.lawful b (List.mem_of_mem_filter hb)) hloop⟩
  | elsewhere scene => exact h

theorem sound_takeAll (perform : Performer α σ) {w : World (EventLoop α) σ}
    (h : ∃ ds, w.host.Sound ds) (steps : List (LoopStep α σ)) :
    ∃ ds, (takeAll perform w steps).host.Sound ds := by
  induction steps generalizing w with
  | nil => exact h
  | cons s steps ih => exact ih (sound_take perform h s)

end LoopStep

end CueScript

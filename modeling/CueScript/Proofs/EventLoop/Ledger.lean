import CueScript.Proofs.EventLoop.History

set_option autoImplicit false

/-! # The ledger of an event loop

Bindings come in by hand, or when a command binds an event, or when a body that is fired does; they
go when their number is dropped. The *ledger* of a history has a line for each time that the event
loop was asked to keep a binding or to drop one, with its answer. What commands and bodies asked for
is taken from the record of the engine that ran them, so it is there also if they failed later on.

The ledger tells everything about the table of bindings (`table_history`). The numbers that were
given are one, two, three and so on, whatever was dropped; and a binding stands in the table, under
its number and in the order of numbers, exactly if the ledger has it and its number was not dropped
since. -/

namespace CueScript

variable {α σ : Type}

/-! ## Ledgers -/

/-- A line of a ledger: a binding was kept under a number, or a number was to be dropped, and was
    found or not. -/
inductive LedgerLine (α : Type) where
  | subscribed (id : Nat) (b : Binding α)
  | unsubscribed (id : Nat) (found : Bool)

namespace LedgerLine

/-- The number that was given. -/
def given? : LedgerLine α → Option Nat
  | subscribed id _ => some id
  | unsubscribed _ _ => none

/-- The line for a deed of an engine; calls do not concern the event loop. -/
def ofDeed? : Deed α → Option (LedgerLine α)
  | .subscribe b (.ok id) => some (subscribed id b)
  | _ => none

@[simp] theorem ofDeed?_subscribe (b : Binding α) (id : Nat) :
    ofDeed? (.subscribe b (.ok id)) = some (subscribed id b) := rfl

@[simp] theorem ofDeed?_call (n : Node α) (handler : Handler α) (args : Args)
    (answer : Except String (Option Value)) : ofDeed? (.call n handler args answer) = none := rfl

/-- The binding was kept under the number, which was not dropped since. -/
def Stands (ledger : List (LedgerLine α)) (id : Nat) (b : Binding α) : Prop :=
  ∃ before after, ledger = before ++ subscribed id b :: after ∧
    ∀ found, unsubscribed id found ∉ after

theorem not_stands_nil (id : Nat) (b : Binding α) : ¬ Stands [] id b := by
  rintro ⟨before, after, heq, -⟩
  simp at heq

/-- What one more line changes. -/
theorem stands_append_singleton {ledger : List (LedgerLine α)} {line : LedgerLine α} {id : Nat}
    {b : Binding α} : Stands (ledger ++ [line]) id b
      ↔ line = subscribed id b ∨ Stands ledger id b ∧ ∀ found, line ≠ unsubscribed id found := by
  constructor
  · rintro ⟨before, after, heq, hafter⟩
    -- The line of the binding is the last one, or comes before it.
    rcases List.eq_nil_or_concat after with rfl | ⟨after, last, rfl⟩
    · exact Or.inl (List.append_singleton_inj.1 heq).2
    · rw [List.concat_eq_append, ← List.cons_append, ← List.append_assoc] at heq
      obtain ⟨rfl, rfl⟩ := List.append_singleton_inj.1 heq
      refine Or.inr ⟨⟨before, after, rfl, fun found hmem => ?_⟩, fun found hline => ?_⟩
      · exact hafter found (by simp [hmem])
      · exact hafter found (by simp [hline])
  · rintro (rfl | ⟨⟨before, after, rfl, hafter⟩, hline⟩)
    · exact ⟨ledger, [], rfl, by simp⟩
    · refine ⟨before, after ++ [line], by simp, fun found hmem => ?_⟩
      rcases List.mem_append.1 hmem with hmem | hmem
      · exact hafter found hmem
      · exact hline found (List.mem_singleton.1 hmem).symm

end LedgerLine

/-! ## Tables as the ledger tells -/

namespace EventLoop

variable {loop : EventLoop α} {ledger : List (LedgerLine α)}

/-- The event loop is as the ledger tells. -/
structure Booked (ledger : List (LedgerLine α)) (loop : EventLoop α) : Prop where
  ordered : loop.Ordered
  numbered : ledger.filterMap LedgerLine.given? = List.range' 1 loop.issued
  stands : ∀ id b, (id, b) ∈ loop.bindings.entries ↔ LedgerLine.Stands ledger id b

theorem booked_empty : (empty : EventLoop α).Booked [] where
  ordered := ordered_empty
  numbered := rfl
  stands id b := by simp [empty, Table.empty, LedgerLine.not_stands_nil]

theorem Ordered.nodup_keys (h : loop.Ordered) : loop.bindings.keys.Nodup :=
  h.increasing.imp Nat.ne_of_lt

/-- Dropping a number takes its entry away and leaves the others as they stand. -/
theorem Ordered.entries_unsubscribe (h : loop.Ordered) (id : Nat) :
    (loop.unsubscribe id).2.bindings.entries = loop.bindings.entries.filter fun e => e.1 ≠ id :=
  Table.entries_erase id h.nodup_keys

theorem unsubscribe_eq_true_iff {id : Nat} :
    (loop.unsubscribe id).1 = true ↔ id ∈ loop.bindings.keys :=
  Table.contains_iff

/-- Dropping a number that is not there changes nothing. -/
theorem unsubscribe_of_eq_false {id : Nat} (h : (loop.unsubscribe id).1 = false) :
    (loop.unsubscribe id).2 = loop := by
  have hnot : id ∉ loop.bindings.keys := by
    rw [← unsubscribe_eq_true_iff, h]
    exact Bool.false_ne_true
  simp only [unsubscribe, Table.erase_of_not_mem hnot]

theorem Booked.subscribe (h : loop.Booked ledger) (b : Binding α) :
    (loop.subscribe b).2.Booked (ledger ++ [.subscribed (loop.subscribe b).1 b]) where
  ordered := h.ordered.subscribe b
  numbered := by
    rw [List.filterMap_append, h.numbered, issued_subscribe, List.range'_1_concat]
    simp [LedgerLine.given?, EventLoop.subscribe, Nat.add_comm]
  stands := by
    intro id b'
    rw [h.ordered.entries_subscribe b, List.mem_append, h.stands,
      LedgerLine.stands_append_singleton]
    simp [EventLoop.subscribe, or_comm, eq_comm]

theorem Booked.unsubscribe (h : loop.Booked ledger) (id : Nat) :
    (loop.unsubscribe id).2.Booked (ledger ++ [.unsubscribed id (loop.unsubscribe id).1]) where
  ordered := h.ordered.unsubscribe id
  numbered := by
    rw [List.filterMap_append, h.numbered]
    simp [LedgerLine.given?, EventLoop.unsubscribe]
  stands := by
    intro id' b
    have hline : (∀ found, LedgerLine.unsubscribed (α := α) id (loop.unsubscribe id).1
        ≠ .unsubscribed id' found) ↔ id' ≠ id := by
      simp [LedgerLine.unsubscribed.injEq, eq_comm]
    rw [h.ordered.entries_unsubscribe id, List.mem_filter, h.stands,
      LedgerLine.stands_append_singleton, hline]
    simp

/-- Whatever an engine does, the lines of its record tell of it. -/
theorem keeps_booked (perform : Performer α σ) (ds : List (Definition α))
    (ledger : List (LedgerLine α)) :
    (Engine.of perform host).recorded.Keeps ds fun v =>
      v.1.host.Booked (ledger ++ v.2.filterMap LedgerLine.ofDeed?) where
  invoke n handler args v hv := by
    simpa [Engine.recorded, Engine.of, List.filterMap_cons] using hv
  subscribe b v _ hv := by
    have hbooked := hv.subscribe b
    rw [List.append_assoc] at hbooked
    simpa [Engine.recorded, Engine.of, Host.besideScene, host] using hbooked

end EventLoop

/-! ## The ledger of a history -/

namespace LoopStep

/-- The lines of what an engine did, if it keeps a record. -/
def noted {β : Type} (recorded : Answer (World (EventLoop α) σ × List (Deed α)) β) :
    List (LedgerLine α) :=
  recorded.2.2.filterMap LedgerLine.ofDeed?

/-- The lines that a step adds to the ledger. -/
def lines (perform : Performer α σ) (w : World (EventLoop α) σ) :
    LoopStep α σ → List (LedgerLine α)
  | execute part =>
    noted ((Engine.of perform EventLoop.host).recorded.executeChain part.chain (w, []))
  | run part =>
    match part.chain with
    | [] => []
    | n :: inner => noted ((Engine.of perform EventLoop.host).recorded.run n (w, []) inner)
  | bind part =>
    match part.chain with
    | [] => []
    | n :: inner => noted ((Engine.of perform EventLoop.host).recorded.host.bind n inner (w, []))
  | subscribe signal target body =>
    let b : Binding α := ⟨signal, target, body.chain⟩
    [.subscribed (w.host.subscribe b).1 b]
  | unsubscribe id => [.unsubscribed id (w.host.unsubscribe id).1]
  | fire target signal =>
    noted (w.host.fireWith (Engine.of perform EventLoop.host).recorded target signal (w, []))
  | elsewhere _ => []

/-- The ledger of steps that are taken one after the other. -/
def ledger (perform : Performer α σ) (w : World (EventLoop α) σ) :
    List (LoopStep α σ) → List (LedgerLine α)
  | [] => []
  | s :: rest => s.lines perform w ++ ledger perform (s.take perform w) rest

/-- An engine that keeps a record changes the event loop as the plain one, so what is booked for the
    one is booked for the other. -/
theorem booked_noted {β : Type} {book : List (LedgerLine α)}
    {plain : Answer (World (EventLoop α) σ) β}
    {recorded : Answer (World (EventLoop α) σ × List (Deed α)) β}
    (hextends : plain.Extends [] recorded)
    (h : recorded.2.1.host.Booked (book ++ recorded.2.2.filterMap LedgerLine.ofDeed?)) :
    plain.2.host.Booked (book ++ noted recorded) := by
  obtain ⟨deeds, rfl⟩ := hextends
  exact h

theorem booked_take (perform : Performer α σ) {w : World (EventLoop α) σ}
    {book : List (LedgerLine α)} (hsound : ∃ ds, w.host.Sound ds) (h : w.host.Booked book)
    (s : LoopStep α σ) : (take perform w s).host.Booked (book ++ s.lines perform w) := by
  -- An engine starts with an empty record, which has nothing to add to the book.
  have hstart : w.host.Booked (book ++ ([] : List (Deed α)).filterMap LedgerLine.ofDeed?) := by
    simpa using h
  cases s with
  | execute part =>
    obtain ⟨ds, -, hpart⟩ := sound_beside hsound part
    exact booked_noted (Engine.executeChain_recorded _ _ w [])
      ((EventLoop.keeps_booked perform ds book).executeChain hpart hstart)
  | run part =>
    obtain ⟨ds, -, hpart⟩ := sound_beside hsound part
    obtain ⟨chain, compiled⟩ := part
    cases chain with
    | nil => simpa [take, lines] using h
    | cons n inner =>
      exact booked_noted (Engine.run_recorded _ _ _ w [])
        ((EventLoop.keeps_booked perform ds book).run hpart hstart)
  | bind part =>
    obtain ⟨ds, -, hpart⟩ := sound_beside hsound part
    obtain ⟨chain, compiled⟩ := part
    cases chain with
    | nil => simpa [take, lines] using h
    | cons n inner =>
      exact booked_noted (Engine.bind_recorded _ _ _ w [])
        ((EventLoop.keeps_booked perform ds book).bind hpart hstart)
  | subscribe signal target body => exact h.subscribe _
  | unsubscribe id => exact h.unsubscribe id
  | fire target signal =>
    obtain ⟨ds, hloop⟩ := hsound
    have hbodies : ∀ b ∈ w.host.matching target signal, b.body.WellFormed ds :=
      fun b hb => hloop.lawful b (List.mem_of_mem_filter hb)
    exact booked_noted (EventLoop.fireWith_recorded _ _ target signal w [])
      ((EventLoop.keeps_booked perform ds book).fireEach hbodies hstart)
  | elsewhere scene => simpa [take, lines] using h

theorem booked_takeAll (perform : Performer α σ) {w : World (EventLoop α) σ}
    {book : List (LedgerLine α)} (hsound : ∃ ds, w.host.Sound ds) (h : w.host.Booked book)
    (steps : List (LoopStep α σ)) :
    (takeAll perform w steps).host.Booked (book ++ ledger perform w steps) := by
  induction steps generalizing w book with
  | nil => simpa [takeAll, ledger] using h
  | cons s steps ih =>
    rw [ledger, ← List.append_assoc]
    exact ih (sound_take perform hsound s) (booked_take perform hsound h s)

end LoopStep

/-- **The ledger tells the table.** After any history of an event loop, also one in which commands
    and bodies failed midway: the numbers that were given are one, two, three and so on, in the
    order in which bindings came in; bindings stand in the order of their numbers, and those that
    stand are those that came in and were not dropped since, as they came in; and dropping a number
    tells whether it stands, takes away its binding and nothing else. -/
theorem EventLoop.table_history (perform : Performer α σ) (scene : σ)
    (steps : List (LoopStep α σ)) :
    let start : World (EventLoop α) σ := ⟨.empty, scene⟩
    let loop := (LoopStep.takeAll perform start steps).host
    let ledger := LoopStep.ledger perform start steps
    ledger.filterMap LedgerLine.given? = List.range' 1 loop.issued
      ∧ loop.bindings.keys.Pairwise (· < ·)
      ∧ (∀ id b, (id, b) ∈ loop.bindings.entries ↔ LedgerLine.Stands ledger id b)
      ∧ ∀ id, ((loop.unsubscribe id).1 = true ↔ id ∈ loop.bindings.keys)
        ∧ (loop.unsubscribe id).2.bindings.entries
          = loop.bindings.entries.filter (fun e => e.1 ≠ id)
        ∧ ((loop.unsubscribe id).1 = false → (loop.unsubscribe id).2 = loop) := by
  intro start loop ledger
  have h : loop.Booked ([] ++ ledger) :=
    LoopStep.booked_takeAll perform ⟨[], sound_empty []⟩ booked_empty steps
  rw [List.nil_append] at h
  exact ⟨h.numbered, h.ordered.increasing, h.stands, fun id =>
    ⟨unsubscribe_eq_true_iff, h.ordered.entries_unsubscribe id, unsubscribe_of_eq_false⟩⟩

/-- A number is not given again after it was dropped. -/
example :
    let b : Part Unit := ⟨[], [], [], ⟨[], []⟩, rfl, List.suffix_refl _⟩
    let steps : List (LoopStep Unit Unit) :=
      [.subscribe "click" (.host "document") b, .unsubscribe 1,
        .subscribe "load" (.host "document") b]
    (LoopStep.takeAll (fun _ _ scene => (.ok none, scene)) ⟨.empty, ()⟩ steps).host.bindings.keys
      = [2] :=
  rfl

end CueScript

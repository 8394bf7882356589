import CueScript.Engine.Execute

set_option autoImplicit false

/-! # Hosts

The event loop is a host that keeps bindings until someone fires their signal. It numbers them from
one on and never uses a number again. Firing runs the bindings that are there when it begins, in
the order of their numbers, and stops at the first that fails; bindings made meanwhile wait for the
next time.

A closed host refuses every binding. -/

namespace CueScript

/-- The bindings of an event loop, under their numbers, and the last number that was given. -/
structure EventLoop (α : Type) where
  issued : Nat
  bindings : Table Nat (Binding α)

namespace EventLoop

variable {α : Type}

/-- The event loop without bindings. -/
def empty : EventLoop α := ⟨0, .empty⟩

/-- Keep a binding under the next number. -/
def subscribe (b : Binding α) (loop : EventLoop α) : Nat × EventLoop α :=
  (loop.issued + 1, ⟨loop.issued + 1, loop.bindings.insert (loop.issued + 1) b⟩)

/-- Drop a binding. The answer tells whether it was there. -/
def unsubscribe (id : Nat) (loop : EventLoop α) : Bool × EventLoop α :=
  (loop.bindings.contains id, { loop with bindings := loop.bindings.erase id })

/-- The event loop as a host, which never refuses. -/
def host : Host α (EventLoop α) where
  subscribe b loop := (.ok (subscribe b loop).1, (subscribe b loop).2)

/-- The bindings for a signal of a target, in the order of their numbers. -/
def matching (loop : EventLoop α) (target : Target) (signal : String) : List (Binding α) :=
  loop.bindings.values.filter fun b => b.target = target && b.signal = signal

/-- Fire a signal of a target with an engine on any world. The answer tells how many bindings
    ran. -/
def fireWith {ω : Type} (e : Engine α ω) (loop : EventLoop α) (target : Target) (signal : String)
    (w : ω) : Answer ω Nat :=
  let bindings := loop.matching target signal
  let (result, w') := e.fireEach w bindings
  (result.map fun _ => bindings.length, w')

/-- Fire a signal of a target on the loop itself, where events in the bodies bind again. -/
def fire {σ : Type} (perform : Performer α σ) (target : Target) (signal : String)
    (w : World (EventLoop α) σ) : Answer (World (EventLoop α) σ) Nat :=
  fireWith (Engine.of perform host) w.host target signal w

end EventLoop

/-- A host that refuses every binding for the given reason. -/
def Host.refusing {α η : Type} (reason : String) : Host α η where
  subscribe _ state := (.error reason, state)

end CueScript

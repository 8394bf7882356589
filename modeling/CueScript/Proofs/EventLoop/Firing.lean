import CueScript.Proofs.EventLoop.History

set_option autoImplicit false

/-! # What raising a signal does

The bodies that an event loop runs for a signal may bind again, for the very same signal of the very
same target. Yet the bindings that run are those that were there when the signal was raised, one
after the other, up to the first that fails (`fire_snapshot`).

A body binds at most once: its first event, before it calls any handler. Hence a body that fails
leaves its binding behind too, and what came in can be told from the bodies that were started. -/

namespace CueScript

variable {α σ ω : Type}

/-! ## What a chain binds -/

/-- The binding that a chain asks for when it runs: its first event, for what that binds to, with
    all that it encloses. -/
def Chain.request? : Chain α → Option (Binding α)
  | [] => none
  | n :: inner =>
    match n.definition.role with
    | .event role => (n.target? role).map fun target => ⟨n.keyword, target, inner⟩
    | _ => request? inner

namespace Chain

theorem request?_event {n : Node α} {role : EventRole} (hrole : n.definition.role = .event role)
    (inner : Chain α) :
    request? (n :: inner) = (n.target? role).map fun target => ⟨n.keyword, target, inner⟩ := by
  rw [request?, hrole]

theorem request?_function {n : Node α} (hn : n.isEvent = false) (inner : Chain α) :
    request? (n :: inner) = inner.request? := by
  rw [request?]
  split
  · next role hrole => simp [Node.isEvent, hrole] at hn
  · rfl

theorem request?_append {outer : Chain α} (h : ∀ n ∈ outer, n.isEvent = false) (inner : Chain α) :
    request? (outer ++ inner) = inner.request? := by
  induction outer with
  | nil => rfl
  | cons n outer ih =>
    obtain ⟨hn, houter⟩ := List.forall_mem_cons.1 h
    rw [List.cons_append, request?_function hn, ih houter]

/-- A well-formed chain binds if there is an event in it. -/
theorem WellFormed.isSome_request? {ds : List (Definition α)} {chain : Chain α}
    (h : chain.WellFormed ds) : chain.request?.isSome = chain.any Node.isEvent := by
  induction chain with
  | nil => rfl
  | cons n inner ih =>
    cases hn : n.isEvent with
    | true =>
      obtain ⟨role, hrole⟩ := Node.role_of_isEvent hn
      obtain ⟨target, htarget, -⟩ := h.1.bindsTo hrole
      simp [request?_event hrole, htarget, hn]
    | false => simp [request?_function hn, ih h.2, hn]

/-- What a well-formed chain binds is a part of it. -/
theorem WellFormed.of_request? {ds : List (Definition α)} {chain : Chain α}
    (h : chain.WellFormed ds) {b : Binding α} (hb : chain.request? = some b) :
    b.body.WellFormed ds := by
  induction chain with
  | nil => cases hb
  | cons n inner ih =>
    cases hn : n.isEvent with
    | true =>
      obtain ⟨role, hrole⟩ := Node.role_of_isEvent hn
      rw [request?_event hrole] at hb
      obtain ⟨target, -, rfl⟩ := Option.map_eq_some_iff.1 hb
      exact h.2
    | false =>
      rw [request?_function hn] at hb
      exact ih h.2 hb

end Chain

namespace EventLoop

/-- An event loop takes what a well-formed event asks for. -/
theorem bindOnce_eq (perform : Performer α σ) {ds : List (Definition α)} {event : Node α}
    {body : Chain α} (h : event.WellFormed ds body) (hevent : event.isEvent = true)
    (w : World (EventLoop α) σ) : ∃ b, Chain.request? (event :: body) = some b
      ∧ (Engine.of perform host).bindOnce event body w
        = ⟨[.subscribe b (.ok (w.host.issued + 1))], .ok (w.host.issued + 1),
            { w with host := (w.host.subscribe b).2 }⟩ := by
  obtain ⟨role, hrole⟩ := Node.role_of_isEvent hevent
  obtain ⟨target, htarget, -⟩ := h.bindsTo hrole
  refine ⟨⟨event.keyword, target, body⟩, ?_, ?_⟩
  · rw [Chain.request?_event hrole, htarget]
    rfl
  · simp only [Engine.bindOnce, hrole, htarget]
    rfl

/-- Handlers do not reach the event loop. -/
theorem host_callEach (perform : Performer α σ) (producer : String) (produced : Option Value)
    (ns : List (Node α)) (w : World (EventLoop α) σ) :
    ((Engine.of perform host).callEach producer produced w ns).world.host = w.host :=
  Engine.Keeps.callEach (e := Engine.of perform host) (I := fun v => v.host = w.host)
    (fun _ _ _ _ hv => hv) producer produced ns rfl

/-- A chain leaves its binding behind and nothing else, whatever it comes to. -/
theorem host_insideOut (perform : Performer α σ) {ds : List (Definition α)} {chain : Chain α}
    (h : chain.WellFormed ds) (w : World (EventLoop α) σ) :
    ((Engine.of perform host).insideOut chain w).world.host
      = w.host.subscribeAll chain.request?.toList := by
  rcases chain.split_event with hplain | ⟨outer, event, body, rfl, houter, hevent⟩
  · have hnone : chain.request? = none := by
      simpa [Chain.request?] using Chain.request?_append hplain []
    rw [Engine.insideOut_of_functions _ hplain, hnone]
    exact host_callEach perform _ _ _ w
  · -- The host never refuses, so the handlers around the event are called after it is bound.
    obtain ⟨b, hrequest, hbind⟩ := bindOnce_eq perform h.of_append.1 hevent w
    rw [Engine.insideOut_of_event _ houter hevent, hbind, Chain.request?_append houter, hrequest]
    simp only [Run.andThen]
    split
    · rfl
    · exact host_callEach perform _ _ _ _

theorem host_executeChain (perform : Performer α σ) {ds : List (Definition α)} {chain : Chain α}
    (h : chain.WellFormed ds) (w : World (EventLoop α) σ) :
    ((Engine.of perform host).executeChain chain w).2.host
      = w.host.subscribeAll chain.request?.toList := by
  cases chain with
  | nil => rfl
  | cons n inner =>
    have hexecute := Engine.execute_eq (Engine.of perform host) h w
    rw [Engine.executeChain, hexecute]
    exact host_insideOut perform h w

/-- Firing a binding leaves the binding of its body behind and nothing else. -/
theorem host_fire (perform : Performer α σ) {ds : List (Definition α)} {b : Binding α}
    (hb : b.body.WellFormed ds) (w : World (EventLoop α) σ) :
    ((Engine.of perform host).fire b w).2.host
      = w.host.subscribeAll b.body.request?.toList :=
  host_executeChain perform hb w

end EventLoop

/-! ## The course of firing -/

namespace Engine

/-- Bindings are fired one after the other, and none of them fails. -/
inductive Ran (e : Engine α ω) : ω → List (Binding α) → ω → Prop where
  | done (w : ω) : Ran e w [] w
  | next (b : Binding α) (rest : List (Binding α)) (outcome : Option Outcome) (w w' w'' : ω)
      (ran : e.fire b w = (.ok outcome, w')) (later : Ran e w' rest w'') : Ran e w (b :: rest) w''

/-- The course of firing bindings: which of them are started, and what the answer is. All of them
    run; or some run, the next one fails, and those after it are not started. -/
inductive Course (e : Engine α ω) (w : ω) (bs : List (Binding α)) :
    List (Binding α) → Answer ω Nat → Prop where
  | all (w' : ω) (ran : e.Ran w bs w') : Course e w bs bs (.ok bs.length, w')
  | stopped (before : List (Binding α)) (b : Binding α) (after : List (Binding α))
      (error : ExecutionError) (v w' : ω) (split : bs = before ++ b :: after)
      (ran : e.Ran w before v) (failed : e.fire b v = (.error error, w')) :
      Course e w bs (before ++ [b]) (.error error, w')

/-- Firing bindings runs all, or stops at the first that fails. -/
theorem fireEach_cases (e : Engine α ω) (w : ω) (bs : List (Binding α)) :
    (∃ w', e.fireEach w bs = (.ok (), w') ∧ e.Ran w bs w')
      ∨ ∃ before b after error v w', bs = before ++ b :: after ∧ e.Ran w before v
        ∧ e.fire b v = (.error error, w') ∧ e.fireEach w bs = (.error error, w') := by
  induction bs generalizing w with
  | nil => exact Or.inl ⟨w, rfl, .done w⟩
  | cons b rest ih =>
    obtain ⟨⟨result, w'⟩, hfire⟩ : ∃ answer, e.fire b w = answer := ⟨_, rfl⟩
    cases result with
    | error error =>
      exact Or.inr ⟨[], b, rest, error, w, w', rfl, .done w, hfire, by rw [fireEach, hfire]⟩
    | ok outcome =>
      have heq : e.fireEach w (b :: rest) = e.fireEach w' rest := by rw [fireEach, hfire]
      rcases ih w' with ⟨w'', hrest, hran⟩ |
        ⟨before, b', after, error, v, w'', rfl, hran, hfailed, hrest⟩
      · exact Or.inl ⟨w'', heq.trans hrest, .next b _ outcome w w' w'' hfire hran⟩
      · exact Or.inr ⟨b :: before, b', after, error, v, w'', rfl,
          .next b _ outcome w w' v hfire hran, hfailed, heq.trans hrest⟩

/-- Raising a signal takes its course over the bindings that are there. -/
theorem exists_course (e : Engine α ω) (loop : EventLoop α) (target : Target) (signal : String)
    (w : ω) : ∃ started, e.Course w (loop.matching target signal) started
      (loop.fireWith e target signal w) := by
  rcases e.fireEach_cases w (loop.matching target signal) with ⟨w', heach, hran⟩ |
    ⟨before, b, after, error, v, w', hsplit, hran, hfailed, heach⟩
  · refine ⟨loop.matching target signal, ?_⟩
    rw [EventLoop.fireWith, heach]
    exact .all w' hran
  · refine ⟨before ++ [b], ?_⟩
    rw [EventLoop.fireWith, heach]
    exact .stopped before b after error v w' hsplit hran hfailed

/-- Bindings that run were there. -/
theorem Course.subset {e : Engine α ω} {w : ω} {bs started : List (Binding α)}
    {answer : Answer ω Nat} (h : e.Course w bs started answer) : started ⊆ bs := by
  cases h with
  | all => exact fun _ hb => hb
  | stopped before b after _ _ _ split _ _ =>
    rw [split]
    intro b' hb'
    rw [List.mem_append, List.mem_singleton] at hb'
    rw [List.mem_append, List.mem_cons]
    exact hb'.imp_right Or.inl

end Engine

/-- What the bodies of bindings ask for when they run one after the other. -/
def Binding.requests (bs : List (Binding α)) : List (Binding α) :=
  bs.filterMap fun b => b.body.request?

namespace Binding

theorem requests_cons (b : Binding α) (bs : List (Binding α)) :
    requests (b :: bs) = b.body.request?.toList ++ requests bs := by
  cases hrequest : b.body.request? <;> simp [requests, hrequest]

theorem requests_append_singleton (bs : List (Binding α)) (b : Binding α) :
    requests (bs ++ [b]) = requests bs ++ b.body.request?.toList := by
  cases hrequest : b.body.request? <;> simp [requests, hrequest]

/-- Well-formed bodies ask for one binding each, if there is an event in them. -/
theorem length_requests {ds : List (Definition α)} {bs : List (Binding α)}
    (h : ∀ b ∈ bs, b.body.WellFormed ds) :
    (requests bs).length = bs.countP fun b => b.body.any Node.isEvent := by
  rw [requests, List.length_filterMap_eq_countP]
  refine List.countP_congr fun b hb => ?_
  rw [(h b hb).isSome_request?]

end Binding

namespace EventLoop

/-- Bindings that run leave behind what they ask for. -/
theorem host_ran {perform : Performer α σ} {ds : List (Definition α)}
    {w w' : World (EventLoop α) σ} {bs : List (Binding α)}
    (h : (Engine.of perform host).Ran w bs w') (hbs : ∀ b ∈ bs, b.body.WellFormed ds) :
    w'.host = w.host.subscribeAll (Binding.requests bs) := by
  induction h with
  | done => rfl
  | next b rest outcome w w' w'' ran later ih =>
    obtain ⟨hb, hrest⟩ := List.forall_mem_cons.1 hbs
    have hfire := host_fire perform hb w
    rw [ran] at hfire
    rw [ih hrest, hfire, Binding.requests_cons, subscribeAll_append]

/-- The bindings that firing leaves behind are those of the bodies that were started. -/
theorem host_course {perform : Performer α σ} {ds : List (Definition α)}
    {w : World (EventLoop α) σ} {bs started : List (Binding α)}
    {answer : Answer (World (EventLoop α) σ) Nat}
    (h : (Engine.of perform host).Course w bs started answer)
    (hstarted : ∀ b ∈ started, b.body.WellFormed ds) :
    answer.2.host = w.host.subscribeAll (Binding.requests started) := by
  cases h with
  | all w' ran => exact host_ran ran hstarted
  | stopped before b after error v w' split ran failed =>
    -- The body that failed had bound its event before its handler was called.
    have hbefore := host_ran ran fun b' hb' => hstarted b' (List.mem_append_left _ hb')
    have hfire := host_fire perform (hstarted b (by simp)) v
    rw [failed] at hfire
    rw [Binding.requests_append_singleton, subscribeAll_append, ← hbefore]
    exact hfire

/-- The bindings that run for a signal, with their numbers. -/
theorem matching_eq (loop : EventLoop α) (target : Target) (signal : String) :
    loop.matching target signal
      = (loop.bindings.entries.filter fun e => e.2.target = target && e.2.signal = signal).map
          Prod.snd := by
  rw [matching, Table.values, List.filter_map]
  rfl

/-- **Firing works on a snapshot.** After any history of an event loop, raising a signal fires the
    bindings for it that are there, in the order of their numbers, each once, and no other. It
    answers how many there are, or the error of the first that fails, and those after that are not
    started. All that was in the event loop stays where it is; after it, under the next numbers,
    comes what the bodies that were started ask for: one binding for each that has an event in it,
    also for the one that failed. -/
theorem fire_snapshot (perform : Performer α σ) (scene : σ) (steps : List (LoopStep α σ))
    (target : Target) (signal : String) :
    let w := LoopStep.takeAll perform ⟨.empty, scene⟩ steps
    let old := w.host.bindings.entries
    let present := old.filter fun e => e.2.target = target && e.2.signal = signal
    let fired := fire perform target signal w
    (present.map Prod.fst).Pairwise (· < ·)
      ∧ (∀ e ∈ old, e.1 ≤ w.host.issued)
      ∧ ∃ started, (Engine.of perform host).Course w (present.map Prod.snd) started fired
        ∧ fired.2.host.bindings.entries
          = old ++ ((Binding.requests started).zipIdx (w.host.issued + 1)).map Prod.swap
        ∧ (Binding.requests started).length
          = started.countP fun b => b.body.any Node.isEvent := by
  intro w old present fired
  obtain ⟨ds, hloop⟩ : ∃ ds, w.host.Sound ds :=
    LoopStep.sound_takeAll perform ⟨[], sound_empty []⟩ steps
  have hbodies : present.map Prod.snd = w.host.matching target signal :=
    (matching_eq w.host target signal).symm
  have hnumbers : (present.map Prod.fst).Sublist w.host.bindings.keys :=
    List.filter_sublist.map Prod.fst
  obtain ⟨started, hcourse⟩ := (Engine.of perform host).exists_course w.host target signal w
  have hstarted : ∀ b ∈ started, b.body.WellFormed ds := by
    intro b hb
    exact hloop.lawful b (List.mem_of_mem_filter (hcourse.subset hb))
  have hhost := host_course hcourse hstarted
  refine ⟨hloop.ordered.increasing.sublist hnumbers, ?_, started, ?_, ?_, ?_⟩
  · intro e he
    exact hloop.ordered.given e.1 (List.mem_map_of_mem he)
  · rw [hbodies]
    exact hcourse
  · rw [← hloop.ordered.entries_subscribeAll, ← hhost]
    rfl
  · exact Binding.length_requests hstarted

/-- A body that binds for the signal that runs it waits for the next one. -/
example :
    let click : Node Unit := ⟨⟨"click", [], .event (.fixed (.host "document"))⟩, []⟩
    let loop : EventLoop Unit := (empty.subscribe ⟨"click", .host "document", [click]⟩).2
    let fired := fire (fun _ _ scene => (.ok none, scene)) (.host "document") "click" ⟨loop, ()⟩
    fired.1 = .ok 1 ∧ fired.2.host.bindings.keys = [1, 2] :=
  ⟨rfl, rfl⟩

end EventLoop

end CueScript

import CueScript.Proofs.Command.WellFormed
import CueScript.Proofs.Engine.InsideOut

set_option autoImplicit false

/-! # What a command does

The deeds of a command, whatever the host and the handlers answer. At most one binding is made, and
before everything else; then handlers are called, each at most once and the inner ones first, until
one of them fails or lacks a value (`execute_insideOut`). -/

namespace CueScript

variable {α ω : Type}

namespace Run

/-- Calls of the handlers of nodes in a row. Each handler gets what the one before it returned, and
    the first failure ends the row. -/
inductive Calls : String → Option Value → List (Node α) → List (Deed α) →
    Except ExecutionError (Option Value) → Prop where
  | done (producer : String) (produced : Option Value) :
      Calls producer produced [] [] (.ok produced)
  | unmet (producer : String) (produced : Option Value) (n : Node α) (rest : List (Node α))
      (kind : ValueKind) (lacks : n.unmet? produced = some kind) :
      Calls producer produced (n :: rest) [] (.error (.missingValue n.keyword kind producer))
  | failed (producer : String) (produced : Option Value) (n : Node α) (rest : List (Node α))
      (role : FunctionRole α) (reason : String) (function : n.definition.function? = some role)
      (met : n.unmet? produced = none) :
      Calls producer produced (n :: rest)
        [.call n role.handler (n.arguments produced) (.error reason)]
        (.error (.handler n.keyword reason))
  | next (producer : String) (produced : Option Value) (n : Node α) (rest : List (Node α))
      (role : FunctionRole α) (value : Option Value) (deeds : List (Deed α))
      (result : Except ExecutionError (Option Value))
      (function : n.definition.function? = some role) (met : n.unmet? produced = none)
      (later : Calls n.keyword value rest deeds result) :
      Calls producer produced (n :: rest)
        (.call n role.handler (n.arguments produced) (.ok value) :: deeds) result

/-- What executing a chain does and comes to. Without an event all handlers are called, from the
    inside out. The first event is bound with all that it encloses; if the host takes it, the
    handlers of the functions around it are called, none of which gets a value from it. -/
inductive InsideOut : Chain α → List (Deed α) → Except ExecutionError Outcome → Prop where
  | plain (chain : Chain α) (deeds : List (Deed α))
      (result : Except ExecutionError (Option Value))
      (functions : ∀ n ∈ chain, n.isEvent = false)
      (calls : Calls "" none chain.reverse deeds result) : InsideOut chain deeds (result.map .ran)
  | refused (outer body : Chain α) (event : Node α) (target : Target) (reason : String)
      (functions : ∀ n ∈ outer, n.isEvent = false) (binds : event.BindsTo target) :
      InsideOut (outer ++ event :: body)
        [.subscribe ⟨event.keyword, target, body⟩ (.error reason)]
        (.error (.host event.keyword reason))
  | bound (body : Chain α) (event : Node α) (target : Target) (id : Nat)
      (binds : event.BindsTo target) :
      InsideOut (event :: body) [.subscribe ⟨event.keyword, target, body⟩ (.ok id)]
        (.ok (.bound id))
  | around (outer body : Chain α) (event : Node α) (target : Target) (id : Nat)
      (deeds : List (Deed α)) (result : Except ExecutionError (Option Value))
      (functions : ∀ n ∈ outer, n.isEvent = false) (nonempty : outer ≠ [])
      (binds : event.BindsTo target)
      (calls : Calls event.keyword none outer.reverse deeds result) :
      InsideOut (outer ++ event :: body)
        (.subscribe ⟨event.keyword, target, body⟩ (.ok id) :: deeds) (result.map .ran)

end Run

/-! ## Flat runs do just that -/

namespace Engine

/-- Calling handlers one after the other gives a row of calls. -/
theorem calls_callEach (e : Engine α ω) (producer : String) (produced : Option Value)
    {ns : List (Node α)} (hns : ∀ n ∈ ns, ∃ role, n.definition.function? = some role) (w : ω) :
    Run.Calls producer produced ns (e.callEach producer produced w ns).deeds
      (e.callEach producer produced w ns).result := by
  induction ns generalizing producer produced w with
  | nil => exact .done producer produced
  | cons n rest ih =>
    obtain ⟨⟨role, hrole⟩, hrest⟩ := List.forall_mem_cons.1 hns
    rw [callEach]
    cases hunmet : n.unmet? produced with
    | some kind =>
      simp only [callOnce, hrole, hunmet]
      exact .unmet producer produced n rest kind hunmet
    | none =>
      obtain ⟨⟨answer, w'⟩, hinvoke⟩ : ∃ p, e.invoke n role.handler (n.arguments produced) w = p :=
        ⟨_, rfl⟩
      simp only [callOnce, hrole, hunmet, hinvoke]
      cases answer with
      | error reason => exact .failed producer produced n rest role reason hrole hunmet
      | ok value =>
        exact .next producer produced n rest role value _ _ hrole hunmet
          (ih n.keyword value hrest w')

/-- Binding a well-formed event asks the host once. -/
theorem bindOnce_cases (e : Engine α ω) {ds : List (Definition α)} {event : Node α}
    {body : Chain α} (h : event.WellFormed ds body) (hevent : event.isEvent = true) (w : ω) :
    ∃ target answer w', event.BindsTo target
      ∧ e.bindOnce event body w = ⟨[.subscribe ⟨event.keyword, target, body⟩ answer],
          answer.mapError (.host event.keyword), w'⟩ := by
  obtain ⟨role, hrole⟩ := Node.role_of_isEvent hevent
  obtain ⟨target, htarget, hbinds⟩ := h.bindsTo hrole
  refine ⟨target, (e.host.subscribe ⟨event.keyword, target, body⟩ w).1,
    (e.host.subscribe ⟨event.keyword, target, body⟩ w).2, hbinds, ?_⟩
  simp only [bindOnce, hrole, htarget]

/-- Running a well-formed chain from the inside out does what it should. -/
theorem insideOut_deeds (e : Engine α ω) {ds : List (Definition α)} {chain : Chain α}
    (h : chain.WellFormed ds) (w : ω) :
    Run.InsideOut chain (e.insideOut chain w).deeds (e.insideOut chain w).result := by
  rcases chain.split_event with hplain | ⟨outer, event, body, rfl, houter, hevent⟩
  · rw [e.insideOut_of_functions hplain]
    exact .plain chain _ _ hplain (e.calls_callEach _ _ (fun n hn => by
      rw [List.mem_reverse] at hn
      exact (h.sound n hn).function?_eq_some (hplain n hn)) w)
  · have hroles : ∀ n ∈ outer.reverse, ∃ role, n.definition.function? = some role := by
      intro n hn
      rw [List.mem_reverse] at hn
      exact (h.sound n (List.mem_append_left _ hn)).function?_eq_some (houter n hn)
    obtain ⟨target, answer, w', hbinds, hbind⟩ := e.bindOnce_cases h.of_append.1 hevent w
    rw [e.insideOut_of_event houter hevent, hbind]
    cases answer with
    | error reason => exact .refused outer body event target reason houter hbinds
    | ok id =>
      cases outer with
      | nil => exact .bound body event target id hbinds
      | cons n outer =>
        exact .around _ body event target id _ _ houter (by simp) hbinds
          (e.calls_callEach _ _ hroles w')

/-- **Nested execution is flat.** Executing a compiled command answers what running its chain from
    the inside out answers, and an engine that keeps a record shows the same deeds in the same
    order: at most one binding, before all calls, and then the calls of the functions around it. -/
theorem execute_insideOut (calls : List (Registration α)) (tokens : List String) {c : Command α}
    (hc : ((Registry.history calls).2.compile tokens).result = .ok c) {n : Node α}
    {inner : Chain α} (hchain : c.chain = n :: inner) (e : Engine α ω) (w : ω) :
    let run := e.insideOut c.chain w
    e.execute n inner w = run.answer
      ∧ (∀ log, e.recorded.execute n inner (w, log) = run.logged log)
      ∧ Run.InsideOut c.chain run.deeds run.result := by
  have hwf := (Registry.holds_history calls).wellFormed_of_compile hc
  rw [hchain] at hwf ⊢
  refine ⟨e.execute_eq hwf w, fun log => ?_, e.insideOut_deeds hwf w⟩
  rw [e.recorded.execute_eq hwf, e.insideOut_recorded (by simp)]

/-- A function around an event: the event is bound first. -/
theorem execute_insideOut_show_click :
    let calls : List (Registration Unit) :=
      [.draft { kind := some .function, words := ["show"], optional := [.value .color],
                handler := some ⟨1, ()⟩ },
       .draft { kind := some .event, words := ["click"], target := some (.host "document") }]
    let outer : Node Unit :=
      ⟨⟨"show", [], .function ⟨[], [.color], none, ⟨1, ()⟩⟩⟩, [⟨.color, false, .empty⟩]⟩
    let event : Node Unit := ⟨⟨"click", [], .event (.fixed (.host "document"))⟩, []⟩
    let e : Engine Unit Nat := ⟨fun _ _ _ w => (.ok none, w), ⟨fun _ w => (.ok w, w + 1)⟩⟩
    let run := e.insideOut [outer, event] 3
    ((Registry.history calls).2.compile ["show", "click"]).result = .ok ⟨[outer, event], []⟩
      ∧ e.execute outer [event] 3 = run.answer
      ∧ (∀ log, e.recorded.execute outer [event] (3, log) = run.logged log)
      ∧ Run.InsideOut [outer, event] run.deeds run.result := by
  intro calls outer event e run
  have hc : ((Registry.history calls).2.compile ["show", "click"]).result
      = .ok ⟨[outer, event], []⟩ := rfl
  exact ⟨hc, execute_insideOut calls _ hc rfl e 3⟩

end Engine

end CueScript

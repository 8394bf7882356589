import CueScript.Proofs.Engine.Arguments
import CueScript.Proofs.Engine.Record
import Mathlib.Data.List.TakeWhile

set_option autoImplicit false

/-! # Running from the inside out

Execution follows the nesting of a chain: each function runs its inner chain first. What happens is
flat, however. The first event of the chain, if there is one, is bound with all that it encloses;
then the handlers of the functions around it are called, the innermost first, each with what the
call before it returned (`Engine.insideOut`).

Both agree on well-formed chains, whatever host and handlers answer: in the result, the world and
every deed. -/

namespace CueScript

variable {α ω : Type}

/-! ## Flat runs -/

namespace Engine

/-- Bind an event. -/
def bindOnce (e : Engine α ω) (event : Node α) (body : Chain α) (w : ω) : Run α ω Nat :=
  match event.definition.role with
  | .event role =>
    match event.target? role with
    | none => ⟨[], .error (.missingTarget event.keyword), w⟩
    | some target =>
      let b : Binding α := ⟨event.keyword, target, body⟩
      let (answer, w') := e.host.subscribe b w
      ⟨[.subscribe b answer], answer.mapError (.host event.keyword), w'⟩
  | _ => ⟨[], .error (.notBindable event.keyword event.kind), w⟩

/-- Call the handler of a node. -/
def callOnce (e : Engine α ω) (n : Node α) (producer : String) (produced : Option Value) (w : ω) :
    Run α ω (Option Value) :=
  match n.definition.function? with
  | none => ⟨[], .error (.notRunnable n.keyword n.kind), w⟩
  | some role =>
    match n.unmet? produced with
    | some kind => ⟨[], .error (.missingValue n.keyword kind producer), w⟩
    | none =>
      let args := n.arguments produced
      let (answer, w') := e.invoke n role.handler args w
      ⟨[.call n role.handler args answer], answer.mapError (.handler n.keyword), w'⟩

/-- Call the handlers of nodes one after the other, each with what the one before it returned. -/
def callEach (e : Engine α ω) (producer : String) (produced : Option Value) (w : ω) :
    List (Node α) → Run α ω (Option Value)
  | [] => .pure produced w
  | n :: rest =>
    (e.callOnce n producer produced w).andThen fun value w' => e.callEach n.keyword value w' rest

/-- Bind the first event of a chain, and call the handlers of the functions around it from the
    inside out. -/
def insideOut (e : Engine α ω) (chain : Chain α) (w : ω) : Run α ω Outcome :=
  let functions := (chain.takeWhile fun n => !n.isEvent).reverse
  match chain.dropWhile fun n => !n.isEvent with
  | [] => (e.callEach "" none w functions).map .ran
  | event :: body =>
    (e.bindOnce event body w).andThen fun id w' =>
      if functions.isEmpty then .pure (.bound id) w'
      else (e.callEach event.keyword none w' functions).map .ran

/-- The value that a chain comes to when it runs from the inside out; an event comes to none. -/
def innerValue (e : Engine α ω) (chain : Chain α) (w : ω) : Run α ω (Option Value) :=
  let functions := (chain.takeWhile fun n => !n.isEvent).reverse
  match chain.dropWhile fun n => !n.isEvent with
  | [] => e.callEach "" none w functions
  | event :: body =>
    (e.bindOnce event body w).andThen fun _ w' => e.callEach event.keyword none w' functions

end Engine

/-- The keyword that hands a value to the node around a chain. -/
def Chain.producer (chain : Chain α) : String := (chain.head?.map Node.keyword).getD ""

/-- A chain holds functions only, or has a first event. -/
theorem Chain.split_event (chain : Chain α) : (∀ n ∈ chain, n.isEvent = false)
    ∨ ∃ outer event body, chain = outer ++ event :: body
      ∧ (∀ n ∈ outer, n.isEvent = false) ∧ event.isEvent = true := by
  induction chain with
  | nil => exact Or.inl (by simp)
  | cons n inner ih =>
    cases hn : n.isEvent with
    | true => exact Or.inr ⟨[], n, inner, rfl, by simp, hn⟩
    | false =>
      rcases ih with hplain | ⟨outer, event, body, rfl, houter, hevent⟩
      · exact Or.inl (List.forall_mem_cons.2 ⟨hn, hplain⟩)
      · exact Or.inr ⟨n :: outer, event, body, rfl, List.forall_mem_cons.2 ⟨hn, houter⟩, hevent⟩

namespace Engine

/-! ## Nested runs are flat -/

theorem callEach_append_singleton (e : Engine α ω) (producer : String) (produced : Option Value)
    (w : ω) (ns : List (Node α)) (n : Node α) :
    e.callEach producer produced w (ns ++ [n])
      = (e.callEach producer produced w ns).andThen fun value w' =>
          e.callOnce n ((ns.getLast?.map Node.keyword).getD producer) value w' := by
  induction ns generalizing producer produced w with
  | nil => simp [callEach]
  | cons m rest ih =>
    simp only [List.cons_append, callEach, ih, Run.andThen_assoc]
    cases rest with
    | nil => simp
    | cons m' rest => simp [List.getLast?_cons]

/-- An event comes to no value. -/
theorem innerValue_event (e : Engine α ω) {event : Node α} (hevent : event.isEvent = true)
    (body : Chain α) (w : ω) :
    e.innerValue (event :: body) w = (e.bindOnce event body w).map fun _ => none := by
  simp [innerValue, hevent, callEach, Run.map_eq_andThen]

/-- A function around a chain is called after all that the chain does. -/
theorem innerValue_cons (e : Engine α ω) {n : Node α} (hn : n.isEvent = false) (inner : Chain α)
    (w : ω) :
    e.innerValue (n :: inner) w
      = (e.innerValue inner w).andThen fun value w' => e.callOnce n inner.producer value w' := by
  cases inner with
  | nil => simp [innerValue, hn, callEach, Chain.producer]
  | cons child rest =>
    cases hchild : child.isEvent with
    | true => simp [innerValue, hn, hchild, callEach, Chain.producer, Run.andThen_assoc]
    | false =>
      -- The inner chain ends with a call of the child, so that hands its value to the node.
      have hproducer : ∀ name : String,
          ((((child :: rest).takeWhile fun n => !n.isEvent).reverse.getLast?.map
            Node.keyword).getD name) = Chain.producer (child :: rest) := by
        simp [hchild, Chain.producer]
      have hdrop : (n :: child :: rest).dropWhile (fun n => !n.isEvent)
          = (child :: rest).dropWhile fun n => !n.isEvent := by simp [hn]
      simp only [innerValue, hdrop]
      rw [List.takeWhile_cons_of_pos (by simp [hn]), List.reverse_cons]
      simp only [callEach_append_singleton, hproducer]
      split
      · rfl
      · rw [Run.andThen_assoc]

end Engine

/-! ## Execution is flat -/

namespace Engine

theorem bind_eq (e : Engine α ω) (n : Node α) (inner : Chain α) (w : ω) :
    e.host.bind n inner w = (e.bindOnce n inner w).answer := by
  unfold Host.bind bindOnce
  cases n.definition.role with
  | event role =>
    dsimp only
    cases n.target? role <;> rfl
  | function role => rfl
  | literal kind => rfl

/-- A function cannot be bound. -/
theorem bind_function (e : Engine α ω) {n : Node α} (hn : n.isEvent = false) (inner : Chain α)
    (w : ω) : e.host.bind n inner w = (.error (.notBindable n.keyword n.kind), w) := by
  unfold Host.bind
  unfold Node.isEvent at hn
  split
  · next role hrole => simp [hrole] at hn
  · rfl

theorem call_eq (e : Engine α ω) {ds : List (Definition α)} {n : Node α} {inner : Chain α}
    (h : n.WellFormed ds inner) {role : FunctionRole α}
    (hrole : n.definition.function? = some role) (producer : String) (produced : Option Value)
    (w : ω) : e.call n role producer produced w = (e.callOnce n producer produced w).answer := by
  unfold call callOnce
  rw [Node.collectArgs_eq h.awaits.once h.complete, hrole]
  simp only [Node.unmet?, Node.arguments]
  cases n.slots.find? fun s => s.required && (s.argument produced).isNone <;> rfl

/-- Running a function with its inner chain is running both from the inside out. -/
theorem run_eq (e : Engine α ω) {ds : List (Definition α)} {n : Node α} {inner : Chain α}
    (h : Chain.WellFormed ds (n :: inner)) (hn : n.isEvent = false) (w : ω) :
    e.run n w inner = (e.innerValue (n :: inner) w).answer := by
  -- Well-formedness of the inner chain is needed for the calls in it, so it goes along.
  induction inner generalizing n w with
  | nil =>
    obtain ⟨role, hrole⟩ := h.1.sound.function?_eq_some hn
    rw [innerValue_cons e hn, run, hrole]
    exact e.call_eq h.1 hrole _ _ _
  | cons child rest ih =>
    obtain ⟨role, hrole⟩ := h.1.sound.function?_eq_some hn
    rw [innerValue_cons e hn, Run.answer_andThen]
    simp only [run, hrole]
    cases hchild : child.isEvent with
    | true =>
      rw [innerValue_event e hchild, Run.answer_map, bind_eq]
      obtain ⟨deeds, result, w'⟩ := e.bindOnce child rest w
      cases result with
      | error error => rfl
      | ok id => exact e.call_eq h.1 hrole _ _ _
    | false =>
      rw [ih h.2 hchild]
      obtain ⟨deeds, result, w'⟩ := e.innerValue (child :: rest) w
      cases result with
      | error error => rfl
      | ok value => exact e.call_eq h.1 hrole _ _ _

/-- An event cannot be run. -/
theorem run_event (e : Engine α ω) {n : Node α} (hn : n.isEvent = true) (inner : Chain α) (w : ω) :
    e.run n w inner = (.error (.notRunnable n.keyword n.kind), w) := by
  cases inner <;> simp [run, Node.function?_of_isEvent hn]

/-- Binding a node changes what executing it changes, unless it is a function. -/
theorem world_bind (e : Engine α ω) (n : Node α) (inner : Chain α) (w : ω) :
    (e.host.bind n inner w).2 = if n.isEvent then (e.execute n inner w).2 else w := by
  cases hn : n.isEvent with
  | true => simp [execute, hn]
  | false => simp [e.bind_function hn]

/-- Running a node changes what executing it changes, unless it is an event. -/
theorem world_run (e : Engine α ω) (n : Node α) (inner : Chain α) (w : ω) :
    (e.run n w inner).2 = if n.isEvent then w else (e.execute n inner w).2 := by
  cases hn : n.isEvent with
  | true => simp [e.run_event hn]
  | false => simp [execute, hn]

theorem insideOut_event (e : Engine α ω) {event : Node α} (hevent : event.isEvent = true)
    (body : Chain α) (w : ω) :
    e.insideOut (event :: body) w = (e.bindOnce event body w).map .bound := by
  simp [insideOut, hevent, Run.map_eq_andThen]

theorem insideOut_function (e : Engine α ω) {n : Node α} (hn : n.isEvent = false)
    (inner : Chain α) (w : ω) :
    e.insideOut (n :: inner) w = (e.innerValue (n :: inner) w).map .ran := by
  simp only [insideOut, innerValue]
  split
  · rfl
  · simp [hn, Run.map_eq_andThen, Run.andThen_assoc]

theorem insideOut_of_functions (e : Engine α ω) {chain : Chain α}
    (h : ∀ n ∈ chain, n.isEvent = false) (w : ω) :
    e.insideOut chain w = (e.callEach "" none w chain.reverse).map .ran := by
  have htake : chain.takeWhile (fun n => !n.isEvent) = chain :=
    List.takeWhile_eq_self_iff.2 (by simpa using h)
  have hdrop : chain.dropWhile (fun n => !n.isEvent) = [] :=
    List.dropWhile_eq_nil_iff.2 (by simpa using h)
  simp only [insideOut, htake, hdrop]

theorem insideOut_of_event (e : Engine α ω) {outer : Chain α} {event : Node α} {body : Chain α}
    (houter : ∀ n ∈ outer, n.isEvent = false) (hevent : event.isEvent = true) (w : ω) :
    e.insideOut (outer ++ event :: body) w
      = (e.bindOnce event body w).andThen fun id w' =>
          if outer.isEmpty then .pure (.bound id) w'
          else (e.callEach event.keyword none w' outer.reverse).map .ran := by
  have htake : (outer ++ event :: body).takeWhile (fun n => !n.isEvent) = outer := by
    rw [List.takeWhile_append_of_pos (by simpa using houter)]
    simp [hevent]
  have hdrop : (outer ++ event :: body).dropWhile (fun n => !n.isEvent) = event :: body := by
    rw [List.dropWhile_append_of_pos (by simpa using houter)]
    simp [hevent]
  simp only [insideOut, htake, hdrop, List.isEmpty_reverse]

/-- Executing a command is running it from the inside out. -/
theorem execute_eq (e : Engine α ω) {ds : List (Definition α)} {n : Node α} {inner : Chain α}
    (h : Chain.WellFormed ds (n :: inner)) (w : ω) :
    e.execute n inner w = (e.insideOut (n :: inner) w).answer := by
  unfold execute
  cases hn : n.isEvent with
  | true =>
    rw [insideOut_event e hn, bind_eq, Run.answer_map]
    rfl
  | false =>
    rw [insideOut_function e hn, run_eq e h hn, Run.answer_map]
    rfl

/-! ## Recorded runs -/

theorem bindOnce_recorded (e : Engine α ω) (event : Node α) (body : Chain α) (w : ω)
    (log : List (Deed α)) :
    (e.recorded.bindOnce event body (w, log)).answer = (e.bindOnce event body w).logged log := by
  unfold bindOnce
  cases event.definition.role with
  | event role =>
    dsimp only
    cases event.target? role with
    | none => simp [Run.answer, Run.logged]
    | some target => rfl
  | function role => simp [Run.answer, Run.logged]
  | literal kind => simp [Run.answer, Run.logged]

theorem callOnce_recorded (e : Engine α ω) (n : Node α) (producer : String)
    (produced : Option Value) (w : ω) (log : List (Deed α)) :
    (e.recorded.callOnce n producer produced (w, log)).answer
      = (e.callOnce n producer produced w).logged log := by
  unfold callOnce
  cases n.definition.function? with
  | none => simp [Run.answer, Run.logged]
  | some role =>
    dsimp only
    cases n.unmet? produced with
    | some kind => simp [Run.answer, Run.logged]
    | none => rfl

theorem callEach_recorded (e : Engine α ω) (producer : String) (produced : Option Value)
    (ns : List (Node α)) (w : ω) (log : List (Deed α)) :
    (e.recorded.callEach producer produced (w, log) ns).answer
      = (e.callEach producer produced w ns).logged log := by
  induction ns generalizing producer produced w log with
  | nil => simp [callEach, Run.answer, Run.logged, Run.pure]
  | cons n rest ih =>
    exact Run.andThen_logged (e.callOnce_recorded n producer produced w log)
      fun value w' log' => ih n.keyword value w' log'

theorem innerValue_recorded (e : Engine α ω) (chain : Chain α) (w : ω) (log : List (Deed α)) :
    (e.recorded.innerValue chain (w, log)).answer = (e.innerValue chain w).logged log := by
  unfold innerValue
  dsimp only
  split
  · exact e.callEach_recorded _ _ _ _ _
  · next event body _ =>
    exact Run.andThen_logged (e.bindOnce_recorded event body w log)
      fun _ w' log' => e.callEach_recorded _ _ _ w' log'

theorem insideOut_recorded (e : Engine α ω) {chain : Chain α} (hchain : chain ≠ []) (w : ω)
    (log : List (Deed α)) :
    (e.recorded.insideOut chain (w, log)).answer = (e.insideOut chain w).logged log := by
  obtain ⟨n, inner, rfl⟩ := List.exists_cons_of_ne_nil hchain
  cases hn : n.isEvent with
  | true =>
    rw [insideOut_event _ hn, insideOut_event _ hn, Run.answer_map, bindOnce_recorded]
    rfl
  | false =>
    rw [insideOut_function _ hn, insideOut_function _ hn, Run.answer_map, innerValue_recorded]
    rfl

/-- An engine that keeps a record adds to it what running from the inside out does. -/
theorem execute_recorded_eq (e : Engine α ω) {ds : List (Definition α)} {n : Node α}
    {inner : Chain α} (h : Chain.WellFormed ds (n :: inner)) (w : ω) (log : List (Deed α)) :
    e.recorded.execute n inner (w, log) = (e.insideOut (n :: inner) w).logged log := by
  rw [e.recorded.execute_eq h, e.insideOut_recorded (by simp)]

end Engine

end CueScript

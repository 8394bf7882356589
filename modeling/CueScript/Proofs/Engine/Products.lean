import CueScript.Proofs.Engine.TypedCalls

set_option autoImplicit false

/-! # Promised products arrive

A function may promise to produce a value of some kind, and a slot that awaits the product of the
next inner node relies on that. If every action keeps the promises of its keywords, no slot is ever
left without its product: nothing fails for a missing value, and what a handler gets in an awaiting
slot is exactly what the handler of the next inner node has just returned (`products_delivered`).

The compiler lets a slot await a product only if the next inner node is a function that promises its
kind (`Node.Fed`). So a row of calls hands products over from one to the next (`Calls.supplied`),
and the first of the row, which has nothing before it, awaits nothing. -/

namespace CueScript

variable {α σ ω : Type}

/-! ## Promises -/

/-- Actions keep what their keywords promise: where a function produces a kind of value, its action
    fails or returns a value of this kind. -/
def Performer.Honest (perform : Performer α σ) (ds : List (Definition α)) : Prop :=
  ∀ d ∈ ds, ∀ role kind, d.function? = some role → role.produces = some kind →
    ∀ args scene value, (perform role.handler.action args scene).1 = .ok value →
      ∃ v, value = some v ∧ v.kind = .value kind

/-- The handlers that an engine calls keep what the definitions promise. -/
def Engine.Honest (e : Engine α ω) (ds : List (Definition α)) : Prop :=
  ∀ n : Node α, n.definition ∈ ds → ∀ role kind, n.definition.function? = some role →
    role.produces = some kind → ∀ args w value, (e.invoke n role.handler args w).1 = .ok value →
      ∃ v, value = some v ∧ v.kind = .value kind

/-- A call that returned kept the promise of its function. -/
def Deed.Honest (d : Deed α) : Prop :=
  ∀ n handler args value, d = .call n handler args (.ok value) →
    ∀ kind, n.definition.produces? = some kind → ∃ v, value = some v ∧ v.kind = .value kind

theorem Performer.Honest.on {perform : Performer α σ} {ds : List (Definition α)}
    (h : perform.Honest ds) (host : Option (Host α σ)) : (Engine.on perform host).Honest ds := by
  intro n hn role kind hrole hkind args w value hvalue
  refine h n.definition hn role kind hrole hkind args w.scene value ?_
  cases host <;> exact hvalue

theorem Run.mem_deeds_andThen {β γ : Type} {run : Run α ω β} {next : β → ω → Run α ω γ}
    {d : Deed α} (hd : d ∈ (run.andThen next).deeds) :
    d ∈ run.deeds ∨ ∃ b, d ∈ (next b run.world).deeds := by
  obtain ⟨deeds, result, w⟩ := run
  cases result with
  | error error => exact Or.inl hd
  | ok b => exact (List.mem_append.1 hd).imp_right fun hd => ⟨b, hd⟩

namespace Engine.Honest

variable {e : Engine α ω} {ds : List (Definition α)}

theorem callOnce (h : e.Honest ds) {n : Node α} (hn : n.definition ∈ ds) (producer : String)
    (produced : Option Value) (w : ω) :
    ∀ d ∈ (e.callOnce n producer produced w).deeds, d.Honest := by
  unfold Engine.callOnce
  split
  · simp
  · next role hrole =>
    split
    · simp
    · obtain ⟨⟨answer, w'⟩, hinvoke⟩ :
          ∃ p, e.invoke n role.handler (n.arguments produced) w = p := ⟨_, rfl⟩
      simp only [hinvoke, List.mem_singleton]
      rintro d rfl m handler args value heq kind hkind
      obtain ⟨rfl, -, -, rfl⟩ := Deed.call.inj heq
      rw [Definition.produces?, hrole] at hkind
      exact h n hn role kind hrole hkind _ w value (congrArg Prod.fst hinvoke)

theorem callEach (h : e.Honest ds) (producer : String) (produced : Option Value)
    {ns : List (Node α)} (hns : ∀ n ∈ ns, n.definition ∈ ds) (w : ω) :
    ∀ d ∈ (e.callEach producer produced w ns).deeds, d.Honest := by
  induction ns generalizing producer produced w with
  | nil => simp [Engine.callEach, Run.pure]
  | cons n rest ih =>
    obtain ⟨hn, hrest⟩ := List.forall_mem_cons.1 hns
    intro d hd
    rcases Run.mem_deeds_andThen hd with hd | ⟨value, hd⟩
    · exact h.callOnce hn producer produced w d hd
    · exact ih n.keyword value hrest _ d hd

/-- Whatever a well-formed chain does, the calls in it keep the promises. -/
theorem insideOut (h : e.Honest ds) {chain : Chain α} (hwf : chain.WellFormed ds) (w : ω) :
    ∀ d ∈ (e.insideOut chain w).deeds, d.Honest := by
  rcases chain.split_event with hplain | ⟨outer, event, body, rfl, houter, hevent⟩
  · rw [e.insideOut_of_functions hplain]
    exact h.callEach _ _ (fun n hn => (hwf.sound n (List.mem_reverse.1 hn)).known) w
  · obtain ⟨target, answer, w', -, hbind⟩ := e.bindOnce_cases hwf.of_append.1 hevent w
    rw [e.insideOut_of_event houter hevent, hbind]
    intro d hd
    rcases Run.mem_deeds_andThen hd with hd | ⟨id, hd⟩
    · rintro n handler args value rfl
      simp at hd
    · split at hd
      · simp [Run.pure] at hd
      · refine h.callEach _ _ (fun n hn => (hwf.sound n ?_).known) _ d hd
        exact List.mem_append_left _ (List.mem_reverse.1 hn)

end Engine.Honest

/-! ## Rows of calls -/

/-- A node whose awaiting slots all get a value of their kind lacks nothing. -/
theorem Node.unmet?_eq_none {n : Node α} {produced : Option Value}
    (hcomplete : ∀ s ∈ n.slots, s.required = true → s.content ≠ .empty)
    (hproduced : ∀ s ∈ n.slots, s.content = .awaited →
      ∃ v, produced = some v ∧ v.kind = .value s.kind) : n.unmet? produced = none := by
  rw [unmet?, Option.map_eq_none_iff, List.find?_eq_none]
  intro s hs hlacks
  rw [Bool.and_eq_true, Option.isNone_iff_eq_none] at hlacks
  obtain ⟨hrequired, hnone⟩ := hlacks
  cases hcontent : s.content with
  | empty => exact hcomplete s hs hrequired hcontent
  | value v => simp [Slot.argument, hcontent] at hnone
  | awaited =>
    obtain ⟨v, rfl, hkind⟩ := hproduced s hs hcontent
    simp [Slot.argument, hcontent, hkind] at hnone

namespace Run

/-- If there is a node before, the deed before is its call, which returned the product and kept its
    promise. -/
def HandsOver (m : Option (Node α)) (previous : Option (Deed α)) (produced : Option Value) : Prop :=
  ∀ n, m = some n → ∃ handler args, previous = some (.call n handler args (.ok produced))
    ∧ Deed.Honest (.call n handler args (.ok produced))

/-- An awaiting slot gets what the node before returned. -/
theorem HandsOver.product {m : Option (Node α)} {previous : Option (Deed α)}
    {produced : Option Value} (h : HandsOver m previous produced) {n : Node α} (hfed : n.FedBy m)
    {s : Slot} (hs : s ∈ n.slots) (hawaited : s.content = .awaited) :
    ∃ m' handler args v, m = some m' ∧ previous = some (.call m' handler args (.ok (some v)))
      ∧ produced = some v ∧ v.kind = .value s.kind := by
  obtain ⟨m', rfl, hproduces⟩ := Option.bind_eq_some_iff.1 (hfed s hs hawaited)
  obtain ⟨handler, args, hprevious, honest⟩ := h m' rfl
  obtain ⟨v, rfl, hkind⟩ := honest m' handler args produced rfl s.kind hproduces
  exact ⟨m', handler, args, v, rfl, hprevious, rfl, hkind⟩

theorem HandsOver.handed {m : Option (Node α)} {previous : Option (Deed α)}
    {produced : Option Value} (h : HandsOver m previous produced) {n : Node α} (hfed : n.FedBy m)
    {i : Nat} {s : Slot} (hs : n.slots[i]? = some s) (hawaited : s.content = .awaited) :
    ∃ m' handler args v, m = some m' ∧ previous = some (.call m' handler args (.ok (some v)))
      ∧ (n.arguments produced).value? i = some v := by
  obtain ⟨m', handler, args, v, hm, hcall, hproduced, hkind⟩ :=
    h.product hfed (List.mem_of_getElem? hs) hawaited
  exact ⟨m', handler, args, v, hm, hcall, Node.value?_arguments_eq_some_iff.2
    ⟨s, hs, Slot.argument_eq_some_iff.2 (Or.inr ⟨hawaited, hproduced, hkind⟩)⟩⟩

/-- In a row of honest calls no value is missing, and each awaiting slot gets what the call before
    returned, which was of the node before. -/
theorem Calls.supplied {producer : String} {produced : Option Value} {ns : List (Node α)}
    {deeds : List (Deed α)} {result : Except ExecutionError (Option Value)}
    (h : Calls producer produced ns deeds result)
    (hcomplete : ∀ n ∈ ns, ∀ s ∈ n.slots, s.required = true → s.content ≠ .empty)
    (honest : ∀ d ∈ deeds, d.Honest) {m : Option (Node α)} {previous : Option (Deed α)}
    (hfed : Node.Fed m ns) (hprevious : HandsOver m previous produced) :
    (∀ keyword expected producer, result ≠ .error (.missingValue keyword expected producer))
      ∧ ∀ before n handler args answer after,
        deeds = before ++ .call n handler args answer :: after →
        ∃ inner outer, ns = inner ++ n :: outer ∧ ∀ (i : Nat) (s : Slot), n.slots[i]? = some s →
          s.content = .awaited → ∃ m' handler' args' v, inner.getLast?.or m = some m'
            ∧ before.getLast?.or previous = some (.call m' handler' args' (.ok (some v)))
            ∧ args.value? i = some v := by
  -- A call that returns hands over to the one after it.
  induction h generalizing previous m with
  | done => exact ⟨nofun, fun before n _ _ _ after heq => by simp at heq⟩
  | unmet producer produced n rest kind lacks =>
    have hmet : n.unmet? produced = none :=
      Node.unmet?_eq_none (hcomplete n List.mem_cons_self) fun s hs hawaited => by
        obtain ⟨-, -, -, v, -, -, hv, hkind⟩ := hprevious.product hfed.1 hs hawaited
        exact ⟨v, hv, hkind⟩
    rw [hmet] at lacks
    cases lacks
  | failed producer produced n rest role reason function met =>
    refine ⟨nofun, fun before n' handler args answer after heq => ?_⟩
    cases before with
    | nil =>
      obtain ⟨heq, -⟩ := List.cons.inj heq
      obtain ⟨rfl, -, rfl, -⟩ := Deed.call.inj heq
      exact ⟨[], rest, rfl, fun i s hs => hprevious.handed hfed.1 hs⟩
    | cons d before => simp at heq
  | next producer produced n rest role value deeds result function met later ih =>
    obtain ⟨hcall, hdeeds⟩ := List.forall_mem_cons.1 honest
    have hnext : HandsOver (some n) (some (.call n role.handler (n.arguments produced) (.ok value)))
        value := by
      rintro _ ⟨⟩
      exact ⟨_, _, rfl, hcall⟩
    obtain ⟨henough, hhanded⟩ :=
      ih (fun n hn => hcomplete n (List.mem_cons_of_mem _ hn)) hdeeds hfed.2 hnext
    refine ⟨henough, fun before n' handler args answer after heq => ?_⟩
    cases before with
    | nil =>
      obtain ⟨heq, -⟩ := List.cons.inj heq
      obtain ⟨rfl, -, rfl, -⟩ := Deed.call.inj heq
      exact ⟨[], rest, rfl, fun i s hs => hprevious.handed hfed.1 hs⟩
    | cons d before =>
      obtain ⟨rfl, rfl⟩ := List.cons.inj heq
      obtain ⟨inner, outer, rfl, hslots⟩ := hhanded before n' handler args answer after rfl
      refine ⟨n :: inner, outer, rfl, fun i s hs hawaited => ?_⟩
      simpa [List.getLast?_cons, Option.or_some] using hslots i s hs hawaited

end Run

/-! ## Executions -/

/-- An execution of a chain: what it did, and what it came to. -/
structure Execution (α : Type) where
  chain : Chain α
  deeds : List (Deed α)
  result : Except ExecutionError (Option Outcome)

/-- In this execution no value is missing, and whenever a handler is called, each awaiting slot of
    its node gets what the handler of the next inner node, which was called just before,
    returned. -/
structure Execution.Supplied (x : Execution α) : Prop where
  enough : ∀ keyword expected producer,
    x.result ≠ .error (.missingValue keyword expected producer)
  handed : ∀ before n handler args answer after,
    x.deeds = before ++ .call n handler args answer :: after →
    ∃ k, x.chain[k]? = some n ∧ ∀ (i : Nat) (s : Slot), n.slots[i]? = some s →
      s.content = .awaited → ∃ m handler' args' v, x.chain[k + 1]? = some m
        ∧ before.getLast? = some (.call m handler' args' (.ok (some v)))
        ∧ args.value? i = some v

/-- The place in a chain of a node that stands somewhere in its reverse. -/
theorem Chain.getElem?_of_reverse {chain inner outer : Chain α} {n : Node α}
    (h : chain.reverse = inner ++ n :: outer) (tail : Chain α) :
    (chain ++ tail)[outer.length]? = some n
      ∧ ∀ m, inner.getLast? = some m → (chain ++ tail)[outer.length + 1]? = some m := by
  have hchain : chain = outer.reverse ++ n :: inner.reverse := by
    rw [← List.reverse_reverse chain, h]
    simp
  subst hchain
  refine ⟨by simp, fun m hm => ?_⟩
  obtain ⟨before, rfl⟩ := List.getLast?_eq_some_iff.1 hm
  simp

/-- Binding an event before does not matter. -/
theorem Execution.Supplied.after_subscribe {chain : Chain α} {deeds : List (Deed α)}
    {result : Except ExecutionError (Option Outcome)} (h : Supplied ⟨chain, deeds, result⟩)
    (b : Binding α) (answer : Except String Nat) :
    Supplied ⟨chain, .subscribe b answer :: deeds, result⟩ := by
  refine ⟨h.enough, fun before n handler args answer' after heq => ?_⟩
  cases before with
  | nil => simp at heq
  | cons d before =>
    obtain ⟨rfl, rfl⟩ := List.cons.inj heq
    obtain ⟨k, hn, hslots⟩ := h.handed before n handler args answer' after rfl
    refine ⟨k, hn, fun i s hs hawaited => ?_⟩
    obtain ⟨m, handler', args', v, hm, hcall, hargument⟩ := hslots i s hs hawaited
    exact ⟨m, handler', args', v, hm, by rw [List.getLast?_cons, hcall]; rfl, hargument⟩

/-- An execution that calls no handler misses none of its products. -/
theorem Execution.supplied_nil (chain : Chain α) {result : Except ExecutionError (Option Outcome)}
    (h : ∀ keyword expected producer, result ≠ .error (.missingValue keyword expected producer)) :
    Supplied ⟨chain, [], result⟩ :=
  ⟨h, fun before n _ _ _ after heq => by simp at heq⟩

/-- The functions around a tail that produces nothing are supplied with all they await. -/
theorem Run.Calls.supplied_around {ds : List (Definition α)} {outer tail : Chain α}
    {producer : String} {deeds : List (Deed α)} {result : Except ExecutionError (Option Value)}
    (h : Calls producer none outer.reverse deeds result)
    (hwf : Chain.WellFormed ds (outer ++ tail)) (htail : tail.produces? = none)
    (honest : ∀ d ∈ deeds, d.Honest) :
    Execution.Supplied ⟨outer ++ tail, deeds, (result.map .ran).map some⟩ := by
  have hcomplete : ∀ n ∈ outer.reverse, ∀ s ∈ n.slots, s.required = true → s.content ≠ .empty :=
    fun n hn => hwf.complete n (List.mem_append_left _ (List.mem_reverse.1 hn))
  have hfirst : HandsOver (α := α) none none none := nofun
  obtain ⟨henough, hhanded⟩ := h.supplied hcomplete honest (hwf.fed_reverse htail) hfirst
  constructor
  case enough =>
    intro keyword expected producer heq
    exact henough keyword expected producer (map_eq_error_iff.1 (map_eq_error_iff.1 heq))
  case handed =>
    intro before n handler args answer after heq
    obtain ⟨inner, rest, hreverse, hslots⟩ := hhanded before n handler args answer after heq
    obtain ⟨hn, hchild⟩ := Chain.getElem?_of_reverse hreverse tail
    refine ⟨rest.length, hn, fun i s hs hawaited => ?_⟩
    obtain ⟨m, handler', args', v, hm, hcall, hargument⟩ := hslots i s hs hawaited
    rw [Option.or_none] at hm hcall
    exact ⟨m, handler', args', v, hchild m hm, hcall, hargument⟩

/-- A well-formed chain whose calls are honest is supplied with all it awaits. -/
theorem Run.InsideOut.supplied {ds : List (Definition α)} {chain : Chain α}
    {deeds : List (Deed α)} {result : Except ExecutionError Outcome}
    (h : InsideOut chain deeds result) (hwf : chain.WellFormed ds)
    (honest : ∀ d ∈ deeds, d.Honest) :
    Execution.Supplied ⟨chain, deeds, result.map some⟩ := by
  cases h with
  | plain chain deeds result functions calls =>
    have hwf' : Chain.WellFormed ds (chain ++ []) := by rwa [List.append_nil]
    simpa only [List.append_nil] using calls.supplied_around hwf' rfl honest
  | refused outer body event target reason functions binds =>
    exact (Execution.supplied_nil _ (by simp [Except.map])).after_subscribe _ _
  | bound body event target id binds =>
    exact (Execution.supplied_nil _ (by simp [Except.map])).after_subscribe _ _
  | around outer body event target id deeds result functions nonempty binds calls =>
    exact (calls.supplied_around hwf binds.produces?_eq_none
      fun d hd => honest d (List.mem_cons_of_mem _ hd)).after_subscribe _ _

/-! ## Observed engines -/

namespace Engine

/-- Execute a chain, and observe what it does. -/
def observe (e : Engine α ω) (chain : Chain α) (w : ω) : Execution α × ω :=
  let (result, w', deeds) := e.recorded.executeChain chain (w, [])
  (⟨chain, deeds, result⟩, w')

/-- Fire bindings one after the other, up to the first that fails, and observe what each does. -/
def observeEach (e : Engine α ω) (w : ω) : List (Binding α) → List (Execution α)
  | [] => []
  | b :: rest =>
    let (x, w') := e.observe b.body w
    match x.result with
    | .error _ => [x]
    | .ok _ => x :: e.observeEach w' rest

/-- Observing is looking at the record of an engine, whatever is in it already. -/
theorem executeChain_recorded_eq (e : Engine α ω) {ds : List (Definition α)} {chain : Chain α}
    (hwf : chain.WellFormed ds) (w : ω) (log : List (Deed α)) :
    e.recorded.executeChain chain (w, log)
      = ((e.observe chain w).1.result, (e.observe chain w).2,
          log ++ (e.observe chain w).1.deeds) := by
  cases chain with
  | nil => simp [observe, executeChain]
  | cons n inner => simp [observe, executeChain, e.execute_recorded_eq hwf, Run.logged]

/-- All that an engine does when it fires bindings belongs to one of the executions. -/
theorem fireEach_recorded_eq (e : Engine α ω) {ds : List (Definition α)} {bs : List (Binding α)}
    (hbs : ∀ b ∈ bs, b.body.WellFormed ds) (w : ω) (log : List (Deed α)) :
    (e.recorded.fireEach (w, log) bs).2.2
      = log ++ (e.observeEach w bs).flatMap Execution.deeds := by
  induction bs generalizing w log with
  | nil => simp [fireEach, observeEach]
  | cons b rest ih =>
    obtain ⟨hb, hrest⟩ := List.forall_mem_cons.1 hbs
    simp only [fireEach, fire, observeEach, e.executeChain_recorded_eq hb]
    cases (e.observe b.body w).1.result with
    | error error => simp
    | ok outcome => simp [ih hrest]

theorem Honest.supplied {e : Engine α ω} {ds : List (Definition α)} (h : e.Honest ds)
    {chain : Chain α} (hwf : chain.WellFormed ds) (w : ω) : (e.observe chain w).1.Supplied := by
  cases chain with
  | nil => exact Execution.supplied_nil _ nofun
  | cons n inner =>
    have hsupplied := (e.insideOut_deeds hwf w).supplied hwf (h.insideOut hwf w)
    simpa [observe, executeChain, e.execute_recorded_eq hwf, Run.logged] using hsupplied

theorem Honest.supplied_each {e : Engine α ω} {ds : List (Definition α)} (h : e.Honest ds)
    {bs : List (Binding α)} (hbs : ∀ b ∈ bs, b.body.WellFormed ds) (w : ω) :
    ∀ x ∈ e.observeEach w bs, x.Supplied := by
  induction bs generalizing w with
  | nil => simp [observeEach]
  | cons b rest ih =>
    obtain ⟨hb, hrest⟩ := List.forall_mem_cons.1 hbs
    have hfirst := h.supplied hb w
    intro x hx
    simp only [observeEach] at hx
    split at hx
    · rwa [List.mem_singleton.1 hx]
    · rcases List.mem_cons.1 hx with rfl | hx
      · exact hfirst
      · exact ih hrest _ x hx

/-- Firing bindings fails only if an execution does. -/
theorem error_of_fireEach (e : Engine α ω) {bs : List (Binding α)} {w : ω}
    {error : ExecutionError} (h : (e.fireEach w bs).1 = .error error) :
    ∃ x ∈ e.observeEach w bs, x.result = .error error := by
  induction bs generalizing w with
  | nil => cases h
  | cons b rest ih =>
    obtain ⟨deeds, hrecorded⟩ := e.executeChain_recorded b.body w []
    simp only [observeEach, observe, hrecorded]
    simp only [fireEach, fire] at h
    obtain ⟨⟨result, w'⟩, hplain⟩ : ∃ p, e.executeChain b.body w = p := ⟨_, rfl⟩
    rw [hplain] at h ⊢
    cases result with
    | error error' =>
      cases h
      exact ⟨_, List.mem_singleton_self _, rfl⟩
    | ok outcome =>
      obtain ⟨x, hx, hresult⟩ := ih h
      exact ⟨x, List.mem_cons_of_mem _ hx, hresult⟩

end Engine

/-! ## Histories -/

/-- The executions that a step of a program starts. -/
def Step.executions (r : Registry α) (perform : Performer α σ) (c : Chronicle α σ) :
    Step α σ → List (Execution α)
  | execute host tokens =>
    (r.root? tokens).toList.map fun p => ((Engine.on perform host).observe (p.1 :: p.2) c.1).1
  | run host tokens =>
    ((r.root? tokens).toList.filter fun p => !p.1.isEvent).map fun p =>
      ((Engine.on perform host).observe (p.1 :: p.2) c.1).1
  | bind host tokens =>
    ((r.root? tokens).toList.filter fun p => p.1.isEvent).map fun p =>
      ((Engine.on perform host).observe (p.1 :: p.2) c.1).1
  | fireBinding host position =>
    ((c.2.filterMap Deed.binding?)[position]?).toList.map fun b =>
      ((Engine.on perform host).observe b.body c.1).1
  | fire target signal =>
    (Engine.on perform none).observeEach c.1 (c.1.host.matching target signal)
  | unsubscribe _ => []

namespace Chronicle.Lawful

variable {ds : List (Definition α)} {c : Chronicle α σ} {r : Registry α}

/-- The chains of a history are well-formed, so executing one adds to the record what observing it
    shows. -/
theorem execute_deeds {n : Node α} {inner : Chain α} (hwf : Chain.WellFormed ds (n :: inner))
    (perform : Performer α σ) (host : Option (Host α σ)) (c : Chronicle α σ) :
    ((Engine.on perform host).recorded.execute n inner c).2.2
      = c.2 ++ ((Engine.on perform host).observe (n :: inner) c.1).1.deeds :=
  congrArg (fun answer => answer.2.2)
    ((Engine.on perform host).executeChain_recorded_eq hwf c.1 c.2)

/-- All that a step does belongs to one of the executions that it starts. -/
theorem take_deeds (h : Chronicle.Lawful ds c) (hr : r.Holds ds) (perform : Performer α σ)
    (s : Step α σ) :
    (s.take r perform c).2 = c.2 ++ (s.executions r perform c).flatMap Execution.deeds := by
  cases s with
  | execute host tokens =>
    cases hroot : r.root? tokens with
    | none => simp [Step.take, Step.executions, hroot]
    | some p =>
      simpa [Step.take, Step.executions, hroot] using
        execute_deeds (hr.wellFormed_of_root? hroot) perform host c
  | run host tokens =>
    cases hroot : r.root? tokens with
    | none => simp [Step.take, Step.executions, hroot]
    | some p =>
      have hdeeds := execute_deeds (hr.wellFormed_of_root? hroot) perform host c
      cases hevent : p.1.isEvent with
      | true => simp [Step.take, Step.executions, hroot, Engine.world_run, hevent]
      | false => simpa [Step.take, Step.executions, hroot, Engine.world_run, hevent] using hdeeds
  | bind host tokens =>
    cases hroot : r.root? tokens with
    | none => simp [Step.take, Step.executions, hroot]
    | some p =>
      have hdeeds := execute_deeds (hr.wellFormed_of_root? hroot) perform host c
      cases hevent : p.1.isEvent with
      | true => simpa [Step.take, Step.executions, hroot, Engine.world_bind, hevent] using hdeeds
      | false => simp [Step.take, Step.executions, hroot, Engine.world_bind, hevent]
  | fireBinding host position =>
    cases hb : (c.2.filterMap Deed.binding?)[position]? with
    | none => simp [Step.take, Step.executions, hb]
    | some b =>
      have hbody := h.deeds.of_binding?_mem (List.mem_of_getElem? hb)
      have hdeeds := (Engine.on perform host).executeChain_recorded_eq hbody c.1 c.2
      simpa [Step.take, Step.executions, hb, Engine.fire] using
        congrArg (fun answer => answer.2.2) hdeeds
  | fire target signal =>
    exact Engine.fireEach_recorded_eq _
      (fun b hb => h.loop b (List.mem_of_mem_filter hb)) c.1 c.2
  | unsubscribe id => simp [Step.take, Step.executions]

/-- All executions of a history are supplied, if the actions are honest. -/
theorem supplied (h : Chronicle.Lawful ds c) (hr : r.Holds ds) {perform : Performer α σ}
    (honest : perform.Honest ds) (s : Step α σ) :
    ∀ x ∈ s.executions r perform c, x.Supplied := by
  intro x hx
  cases s with
  | execute host tokens =>
    obtain ⟨p, hp, rfl⟩ := List.mem_map.1 hx
    exact (honest.on host).supplied (hr.wellFormed_of_root? (Option.mem_toList.1 hp)) c.1
  | run host tokens =>
    obtain ⟨p, hp, rfl⟩ := List.mem_map.1 hx
    have hroot := Option.mem_toList.1 (List.mem_of_mem_filter hp)
    exact (honest.on host).supplied (hr.wellFormed_of_root? hroot) c.1
  | bind host tokens =>
    obtain ⟨p, hp, rfl⟩ := List.mem_map.1 hx
    have hroot := Option.mem_toList.1 (List.mem_of_mem_filter hp)
    exact (honest.on host).supplied (hr.wellFormed_of_root? hroot) c.1
  | fireBinding host position =>
    obtain ⟨b, hb, rfl⟩ := List.mem_map.1 hx
    have hbody := h.deeds.of_binding?_mem (List.mem_of_getElem? (Option.mem_toList.1 hb))
    exact (honest.on host).supplied hbody c.1
  | fire target signal =>
    exact (honest.on none).supplied_each
      (fun b hb => h.loop b (List.mem_of_mem_filter hb)) c.1 x hx
  | unsubscribe id => cases hx

end Chronicle.Lawful

/-- **Promised products arrive.** Let every action that does not fail return what its keyword
    promises. Then after any history, whatever step comes next and on whatever host: each handler
    that is called belongs to an execution that is supplied, in which no value is missing and each
    awaiting slot gets what the handler of the next inner node returned just before. Nor does
    raising a signal ever report a missing value. -/
theorem products_delivered (calls : List (Registration α)) (perform : Performer α σ)
    (honest : perform.Honest (Registry.history calls).2.definitions) (scene : σ)
    (steps : List (Step α σ)) :
    let r := (Registry.history calls).2
    let c := Step.takeAll r perform (⟨.empty, scene⟩, []) steps
    (∀ s : Step α σ,
      (s.take r perform c).2 = c.2 ++ (s.executions r perform c).flatMap Execution.deeds
        ∧ ∀ x ∈ s.executions r perform c, x.Supplied)
      ∧ ∀ target signal keyword expected producer, (EventLoop.fire perform target signal c.1).1
        ≠ .error (.missingValue keyword expected producer) := by
  intro r c
  have hr : r.Holds (Registry.history calls).1 := Registry.holds_history calls
  have hlawful : Chronicle.Lawful _ c := (lawful_start _ scene).takeAll hr perform steps
  rw [hr.definitions_eq] at honest
  refine ⟨fun s => ⟨hlawful.take_deeds hr perform s, hlawful.supplied hr honest s⟩, ?_⟩
  intro target signal keyword expected producer herror
  obtain ⟨x, hx, hresult⟩ := Engine.error_of_fireEach _ (map_eq_error_iff.1 herror)
  exact (hlawful.supplied hr honest (.fire target signal) x hx).enough _ _ _ hresult

/-- The product of an honest action reaches the slot that awaits it. -/
theorem products_delivered_show_pick :
    let calls : List (Registration Bool) :=
      [.draft { kind := some .function, words := ["show"], required := some [.value .color],
                handler := some ⟨1, false⟩ },
       .draft { kind := some .function, words := ["pick"], produces := some (.value .color),
                handler := some ⟨0, true⟩ }]
    let red : Value := .word (.value .color) "red"
    let perform : Performer Bool Unit :=
      fun picks _ scene => (.ok (if picks then some red else none), scene)
    let outer : Node Bool :=
      ⟨⟨"show", [], .function ⟨[.color], [], none, ⟨1, false⟩⟩⟩, [⟨.color, true, .awaited⟩]⟩
    let inner : Node Bool := ⟨⟨"pick", [], .function ⟨[], [], some .color, ⟨0, true⟩⟩⟩, []⟩
    let r := (Registry.history calls).2
    let x : Execution Bool :=
      ⟨[outer, inner], [.call inner ⟨0, true⟩ [] (.ok (some red)),
        .call outer ⟨1, false⟩ [some red] (.ok none)], .ok (some (.ran none))⟩
    perform.Honest r.definitions
      ∧ Step.executions r perform (⟨.empty, ()⟩, []) (.execute none ["show", "pick"]) = [x]
      ∧ x.Supplied := by
  intro calls red perform outer inner r x
  have hdefinitions : r.definitions = [outer.definition, inner.definition] := rfl
  have honest : perform.Honest r.definitions := by
    rw [hdefinitions]
    intro d hd role kind hrole hkind args scene value hvalue
    simp only [List.mem_cons, List.not_mem_nil, or_false] at hd
    rcases hd with rfl | rfl
    · cases hrole
      cases hkind
    · cases hrole
      cases hkind
      cases hvalue
      exact ⟨red, rfl, rfl⟩
  have hexecutions :
      Step.executions r perform (⟨.empty, ()⟩, []) (.execute none ["show", "pick"]) = [x] := rfl
  exact ⟨honest, hexecutions, ((products_delivered calls perform honest () []).1
    (.execute none ["show", "pick"])).2 x (List.mem_singleton_self x)⟩

end CueScript

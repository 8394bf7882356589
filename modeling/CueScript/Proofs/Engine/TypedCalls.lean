import CueScript.Engine.EventLoop
import CueScript.Proofs.Engine.Lawful

set_option autoImplicit false

/-! # Handlers are called with arguments of the right kinds

A handler relies on what its keyword declares: one argument for each slot, the required ones there,
each of the kind of its slot. That holds whenever a handler is called, in every history of commands
and signals, whatever hosts and handlers answer (`calls_typed`).

What carries it is that every binding ever made holds a well-formed body: the deeds of a history are
lawful, and the event loop holds only what they bound. -/

namespace CueScript

variable {α σ : Type}

/-! ## Histories -/

/-- A host that keeps its bindings in the scene. -/
def Host.inScene {η : Type} (host : Host α σ) : Host α (World η σ) where
  subscribe b w :=
    let (answer, scene) := host.subscribe b w.scene
    (answer, { w with scene := scene })

/-- The engine of actions that binds events on the event loop, or on another host. -/
def Engine.on (perform : Performer α σ) : Option (Host α σ) → Engine α (World (EventLoop α) σ)
  | none => .of perform EventLoop.host
  | some host => { Engine.of perform EventLoop.host with host := host.inScene }

/-- A step of a program. Commands are executed, run or bound on the event loop or on another host; a
    binding that was made before is fired on either, by its position among all that were made; the
    event loop raises a signal or drops a binding. -/
inductive Step (α σ : Type) where
  | execute (host : Option (Host α σ)) (tokens : List String)
  | run (host : Option (Host α σ)) (tokens : List String)
  | bind (host : Option (Host α σ)) (tokens : List String)
  | fireBinding (host : Option (Host α σ)) (position : Nat)
  | fire (target : Target) (signal : String)
  | unsubscribe (id : Nat)

/-- The world between two steps, with the record of all deeds so far. -/
abbrev Chronicle (α σ : Type) := World (EventLoop α) σ × List (Deed α)

/-- The outermost node of the command that tokens compile to, with the chain that it encloses. -/
def Registry.root? (r : Registry α) (tokens : List String) : Option (Node α × Chain α) :=
  match (r.compile tokens).result with
  | .ok ⟨n :: inner, _⟩ => some (n, inner)
  | _ => none

theorem Registry.Holds.wellFormed_of_root? {r : Registry α} {ds : List (Definition α)}
    (h : r.Holds ds) {tokens : List String} {n : Node α} {inner : Chain α}
    (hroot : r.root? tokens = some (n, inner)) : Chain.WellFormed ds (n :: inner) := by
  unfold root? at hroot
  split at hroot
  · next hc =>
    cases hroot
    exact h.wellFormed_of_compile hc
  · cases hroot

/-- What a step leaves behind. Tokens that do not compile, and bindings that were never made, leave
    everything as it was. -/
def Step.take (r : Registry α) (perform : Performer α σ) (c : Chronicle α σ) :
    Step α σ → Chronicle α σ
  | execute host tokens =>
    match r.root? tokens with
    | some (n, inner) => ((Engine.on perform host).recorded.execute n inner c).2
    | none => c
  | run host tokens =>
    match r.root? tokens with
    | some (n, inner) => ((Engine.on perform host).recorded.run n c inner).2
    | none => c
  | bind host tokens =>
    match r.root? tokens with
    | some (n, inner) => ((Engine.on perform host).recorded.host.bind n inner c).2
    | none => c
  | fireBinding host position =>
    match (c.2.filterMap Deed.binding?)[position]? with
    | some b => ((Engine.on perform host).recorded.fire b c).2
    | none => c
  | fire target signal =>
    (c.1.host.fireWith (Engine.on perform none).recorded target signal c).2
  | unsubscribe id => ({ c.1 with host := (c.1.host.unsubscribe id).2 }, c.2)

/-- Take steps one after the other. -/
def Step.takeAll (r : Registry α) (perform : Performer α σ) (c : Chronicle α σ)
    (steps : List (Step α σ)) : Chronicle α σ :=
  steps.foldl (take r perform) c

/-- An engine that keeps a record raises signals as the plain one. -/
theorem EventLoop.fireWith_recorded {ω : Type} (e : Engine α ω) (loop : EventLoop α)
    (target : Target) (signal : String) (w : ω) (log : List (Deed α)) :
    (loop.fireWith e target signal w).Extends log
      (loop.fireWith e.recorded target signal (w, log)) := by
  obtain ⟨deeds, hfire⟩ := e.fireEach_recorded (loop.matching target signal) w log
  exact ⟨deeds, by simp only [fireWith, hfire]⟩

/-- Raising a signal in a history is what the event loop itself does. -/
theorem Step.take_fire_world (r : Registry α) (perform : Performer α σ) (c : Chronicle α σ)
    (target : Target) (signal : String) :
    (take r perform c (.fire target signal)).1 = (EventLoop.fire perform target signal c.1).2 := by
  obtain ⟨w, log⟩ := c
  obtain ⟨deeds, hfire⟩ :=
    w.host.fireWith_recorded (Engine.on perform none) target signal w log
  simp only [take, hfire]
  rfl

/-- Executing a command in a history is what the command itself does. -/
theorem Step.take_execute_world {r : Registry α} {tokens : List String} {n : Node α}
    {inner : Chain α} (hroot : r.root? tokens = some (n, inner)) (perform : Performer α σ)
    (c : Chronicle α σ) :
    (take r perform c (.execute none tokens)).1
      = (n.execute perform EventLoop.host inner c.1).2 := by
  obtain ⟨w, log⟩ := c
  obtain ⟨deeds, hexecute⟩ := (Engine.on perform none).execute_recorded n inner w log
  simp only [take, hroot, hexecute]
  rfl

/-! ## What every step keeps -/

/-- The event loop holds well-formed bodies only. -/
def EventLoop.Lawful (ds : List (Definition α)) (loop : EventLoop α) : Prop :=
  ∀ b ∈ loop.bindings.values, b.body.WellFormed ds

namespace EventLoop

variable {ds : List (Definition α)} {loop : EventLoop α}

theorem lawful_empty (ds : List (Definition α)) : (empty : EventLoop α).Lawful ds := by
  simp [Lawful, empty, Table.empty, Table.values]

theorem Lawful.subscribe (h : loop.Lawful ds) {b : Binding α} (hb : b.body.WellFormed ds) :
    (loop.subscribe b).2.Lawful ds := by
  intro b' hb'
  rcases Table.mem_values_insert hb' with rfl | hb'
  · exact hb
  · exact h b' hb'

theorem Lawful.unsubscribe (h : loop.Lawful ds) (id : Nat) : (loop.unsubscribe id).2.Lawful ds :=
  fun b hb => h b (Table.mem_values_of_erase hb)

end EventLoop

/-- All that was done is lawful, and so are the bindings of the event loop. -/
structure Chronicle.Lawful (ds : List (Definition α)) (c : Chronicle α σ) : Prop where
  deeds : Deed.AllLawful ds none c.2
  loop : c.1.host.Lawful ds

theorem Engine.keeps_on (perform : Performer α σ) (host : Option (Host α σ))
    (ds : List (Definition α)) :
    (Engine.on perform host).Keeps ds fun w => w.host.Lawful ds := by
  cases host with
  | none => exact ⟨fun _ _ _ _ hw => hw, fun _ _ hb hw => hw.subscribe hb⟩
  | some host => exact ⟨fun _ _ _ _ hw => hw, fun _ _ _ hw => hw⟩

namespace Chronicle.Lawful

variable {ds : List (Definition α)} {c : Chronicle α σ}

/-- A run adds to the record what it does. -/
theorem logged (h : Chronicle.Lawful ds c) {β : Type} {run : Run α (World (EventLoop α) σ) β}
    (hdeeds : ∀ previous, Deed.AllLawful ds previous run.deeds)
    (hloop : run.world.host.Lawful ds) : Chronicle.Lawful ds (run.logged c.2).2 :=
  ⟨Deed.allLawful_append.2 ⟨h.deeds, hdeeds _⟩, hloop⟩

theorem execute (h : Chronicle.Lawful ds c) (perform : Performer α σ) (host : Option (Host α σ))
    {n : Node α} {inner : Chain α} (hwf : Chain.WellFormed ds (n :: inner)) :
    Chronicle.Lawful ds ((Engine.on perform host).recorded.execute n inner c).2 := by
  obtain ⟨w, log⟩ := c
  rw [Engine.execute_recorded_eq _ hwf]
  exact h.logged (fun previous => (Engine.insideOut_deeds _ hwf w).lawful hwf previous)
    ((Engine.keeps_on perform host ds).insideOut hwf h.loop)

theorem bind (h : Chronicle.Lawful ds c) (perform : Performer α σ) (host : Option (Host α σ))
    {n : Node α} {inner : Chain α} (hwf : Chain.WellFormed ds (n :: inner)) :
    Chronicle.Lawful ds ((Engine.on perform host).recorded.host.bind n inner c).2 := by
  rw [Engine.world_bind]
  split
  · exact h.execute perform host hwf
  · exact h

theorem run (h : Chronicle.Lawful ds c) (perform : Performer α σ) (host : Option (Host α σ))
    {n : Node α} {inner : Chain α} (hwf : Chain.WellFormed ds (n :: inner)) :
    Chronicle.Lawful ds ((Engine.on perform host).recorded.run n c inner).2 := by
  rw [Engine.world_run]
  split
  · exact h
  · exact h.execute perform host hwf

theorem fire (h : Chronicle.Lawful ds c) (perform : Performer α σ) (host : Option (Host α σ))
    {b : Binding α} (hb : b.body.WellFormed ds) :
    Chronicle.Lawful ds ((Engine.on perform host).recorded.fire b c).2 := by
  obtain ⟨signal, target, body⟩ := b
  cases body with
  | nil => exact h
  | cons n inner => exact h.execute perform host hb

theorem fireEach (h : Chronicle.Lawful ds c) (perform : Performer α σ) (host : Option (Host α σ))
    {bs : List (Binding α)} (hbs : ∀ b ∈ bs, b.body.WellFormed ds) :
    Chronicle.Lawful ds ((Engine.on perform host).recorded.fireEach c bs).2 := by
  induction bs generalizing c with
  | nil => exact h
  | cons b rest ih =>
    obtain ⟨hb, hrest⟩ := List.forall_mem_cons.1 hbs
    have hfire := h.fire perform host hb
    rw [Engine.fireEach]
    split
    · next heq => rw [heq] at hfire; exact hfire
    · next heq => rw [heq] at hfire; exact ih hfire hrest

theorem take {r : Registry α} (hr : r.Holds ds) (h : Chronicle.Lawful ds c)
    (perform : Performer α σ) (s : Step α σ) : Chronicle.Lawful ds (s.take r perform c) := by
  cases s with
  | execute host tokens =>
    rw [Step.take]
    split
    · next heq => exact h.execute perform host (hr.wellFormed_of_root? heq)
    · exact h
  | run host tokens =>
    rw [Step.take]
    split
    · next heq => exact h.run perform host (hr.wellFormed_of_root? heq)
    · exact h
  | bind host tokens =>
    rw [Step.take]
    split
    · next heq => exact h.bind perform host (hr.wellFormed_of_root? heq)
    · exact h
  | fireBinding host position =>
    rw [Step.take]
    split
    · next heq =>
      exact h.fire perform host (h.deeds.of_binding?_mem (List.mem_of_getElem? heq))
    · exact h
  | fire target signal =>
    exact h.fireEach perform none fun b hb => h.loop b (List.mem_of_mem_filter hb)
  | unsubscribe id => exact ⟨h.deeds, h.loop.unsubscribe id⟩

theorem takeAll {r : Registry α} (hr : r.Holds ds) (h : Chronicle.Lawful ds c)
    (perform : Performer α σ) (steps : List (Step α σ)) :
    Chronicle.Lawful ds (Step.takeAll r perform c steps) := by
  induction steps generalizing c with
  | nil => exact h
  | cons s steps ih => exact ih (h.take hr perform s)

end Chronicle.Lawful

/-! ## What handlers may rely on -/

/-- The arguments of a function when it is called after some other deed. Each that is there is of
    the kind of its slot. It is there exactly if it is the value bound in the slot, or the slot
    awaits it: then the call just before, of a function that produces this kind, returned it. -/
structure Node.TypedArgs (n : Node α) (role : FunctionRole α) (previous : Option (Deed α))
    (args : Args) : Prop where
  arity : args.length = role.handler.arity
  slots : args.length = n.definition.slots.length
  required : ∀ i < role.required.length, (args.value? i).isSome = true
  typed : ∀ i v, args.value? i = some v →
    ∃ spec, n.definition.slots[i]? = some spec ∧ v.kind = .value spec.kind
  source : ∀ i v, args.value? i = some v ↔ ∃ s, n.slots[i]? = some s
    ∧ (s.content = .value v ∨ s.content = .awaited ∧ v.kind = .value s.kind
      ∧ ∃ m handler args', previous = some (.call m handler args' (.ok (some v)))
        ∧ m.definition.produces? = some s.kind)

theorem Node.value?_arguments_eq_some_iff {n : Node α} {produced : Option Value} {i : Nat}
    {v : Value} : (n.arguments produced).value? i = some v
      ↔ ∃ s, n.slots[i]? = some s ∧ s.argument produced = some v := by
  simp [Args.value?, arguments, Option.join_eq_some_iff]

/-- The required slots come first. -/
theorem Definition.slots_getElem?_required {d : Definition α} {role : FunctionRole α}
    (h : d.function? = some role) {i : Nat} (hi : i < role.required.length) :
    ∃ spec, d.slots[i]? = some spec ∧ spec.required = true := by
  refine ⟨⟨role.required[i], true⟩, ?_, rfl⟩
  rw [slots, role_of_function? h, List.getElem?_append_left (by simpa using hi)]
  simp [hi]

/-- A lawful call passes typed arguments. -/
theorem Node.Sound.typedArgs {ds : List (Definition α)} {n : Node α} (h : n.Sound ds)
    {role : FunctionRole α} (hrole : n.definition.function? = some role)
    (hfit : n.definition.TakesSlots) {produced : Option Value} {previous : Option (Deed α)}
    (hmet : n.unmet? produced = none)
    (hfed : ∀ s ∈ n.slots, s.content = .awaited →
      previous.bind Deed.produces? = some s.kind ∧ produced = previous.bind Deed.returned?) :
    n.TypedArgs role previous (n.arguments produced) := by
  have hlength : (n.arguments produced).length = n.definition.slots.length := by
    rw [← h.declared]
    simp [arguments]
  have hspec : ∀ i : Nat, n.definition.slots[i]? = n.slots[i]?.map Slot.spec := by
    intro i
    rw [← h.declared, List.getElem?_map]
  constructor
  case arity => rw [hlength, hfit role hrole]
  case slots => exact hlength
  case required =>
    intro i hi
    obtain ⟨spec, hdeclared, hrequired⟩ := Definition.slots_getElem?_required hrole hi
    rw [hspec, Option.map_eq_some_iff] at hdeclared
    obtain ⟨s, hs, rfl⟩ := hdeclared
    simp only [unmet?, Option.map_eq_none_iff, List.find?_eq_none] at hmet
    have hmem := hmet s (List.mem_of_getElem? hs)
    have hsome : (s.argument produced).isSome = true := by
      simpa [show s.required = true from hrequired, Option.isSome_iff_ne_none] using hmem
    obtain ⟨v, hv⟩ := Option.isSome_iff_exists.1 hsome
    exact Option.isSome_iff_exists.2 ⟨v, value?_arguments_eq_some_iff.2 ⟨s, hs, hv⟩⟩
  case typed =>
    intro i v hv
    obtain ⟨s, hs, hargument⟩ := value?_arguments_eq_some_iff.1 hv
    refine ⟨s.spec, by rw [hspec, hs]; rfl, ?_⟩
    rcases Slot.argument_eq_some_iff.1 hargument with hvalue | ⟨-, -, hkind⟩
    · exact h.typed s (List.mem_of_getElem? hs) v hvalue
    · exact hkind
  case source =>
    intro i v
    rw [value?_arguments_eq_some_iff]
    refine exists_congr fun s => and_congr_right fun hs => ?_
    rw [Slot.argument_eq_some_iff]
    refine or_congr_right (and_congr_right fun hawaited => ?_)
    obtain ⟨hproduces, rfl⟩ := hfed s (List.mem_of_getElem? hs) hawaited
    constructor
    · rintro ⟨hreturned, hkind⟩
      obtain ⟨d, rfl, hd⟩ := Option.bind_eq_some_iff.1 hreturned
      obtain ⟨m, handler, args', rfl⟩ := Deed.eq_call_of_returned? hd
      exact ⟨hkind, m, handler, args', rfl, hproduces⟩
    · rintro ⟨hkind, m, handler, args', rfl, -⟩
      exact ⟨rfl, hkind⟩

theorem lawful_start (ds : List (Definition α)) (scene : σ) :
    Chronicle.Lawful ds ((⟨.empty, scene⟩, []) : Chronicle α σ) :=
  ⟨trivial, EventLoop.lawful_empty ds⟩

/-- **Handlers are called with typed arguments.** Whatever was registered, whatever steps a program
    takes from an empty event loop, and whatever hosts and actions answer: each call in the record
    is one of a registered function, with its handler, and with the arguments that it declares. -/
theorem calls_typed (calls : List (Registration α)) (perform : Performer α σ) (scene : σ)
    (steps : List (Step α σ)) {before after : List (Deed α)} {n : Node α} {handler : Handler α}
    {args : Args} {answer : Except String (Option Value)}
    (h : (Step.takeAll (Registry.history calls).2 perform (⟨.empty, scene⟩, []) steps).2
      = before ++ .call n handler args answer :: after) :
    ∃ role, n.definition ∈ (Registry.history calls).2.definitions
      ∧ n.definition.role = .function role ∧ handler = role.handler
      ∧ n.TypedArgs role before.getLast? args := by
  have hr := Registry.holds_history calls
  have hlawful := ((lawful_start _ scene).takeAll hr perform steps).deeds
  rw [h] at hlawful
  -- The deeds before the call end with the one that its product comes from.
  cases (Deed.allLawful_append.1 hlawful).2.1 with
  | call _ role produced _ sound function met fed =>
    rw [Option.or_none] at fed
    exact ⟨role, by rw [hr.definitions_eq]; exact sound.known,
      Definition.role_of_function? function, rfl,
      sound.typedArgs function (hr.fit _ sound.known) met fed⟩

/-- A product of the wrong kind does not reach the slot that awaits it. -/
theorem calls_typed_show_pick :
    let calls : List (Registration Bool) :=
      [.draft { kind := some .function, words := ["show"], optional := [.value .color],
                handler := some ⟨1, false⟩ },
       .draft { kind := some .function, words := ["pick"], produces := some (.value .color),
                handler := some ⟨0, true⟩ }]
    let perform : Performer Bool Unit :=
      fun picks _ scene => (.ok (if picks then some (.text "red") else none), scene)
    let outer : Node Bool :=
      ⟨⟨"show", [], .function ⟨[], [.color], none, ⟨1, false⟩⟩⟩, [⟨.color, false, .awaited⟩]⟩
    let inner : Node Bool := ⟨⟨"pick", [], .function ⟨[], [], some .color, ⟨0, true⟩⟩⟩, []⟩
    let before : List (Deed Bool) := [.call inner ⟨0, true⟩ [] (.ok (some (.text "red")))]
    let log := (Step.takeAll (Registry.history calls).2 perform (⟨.empty, ()⟩, [])
      [.execute none ["show", "pick"]]).2
    log = before ++ [.call outer ⟨1, false⟩ [none] (.ok none)]
      ∧ ∃ role, outer.definition ∈ (Registry.history calls).2.definitions
        ∧ outer.definition.role = .function role ∧ ⟨1, false⟩ = role.handler
        ∧ outer.TypedArgs role before.getLast? [none] := by
  intro calls perform outer inner before log
  have hlog : log = before ++ [.call outer ⟨1, false⟩ [none] (.ok none)] := rfl
  exact ⟨hlog, calls_typed calls perform () _ hlog⟩

end CueScript

import CueScript.Command.Node

set_option autoImplicit false

/-! # Running commands

A chain runs from the inside out: the inner chain first, then the action of the outermost node,
whose awaiting slot receives what the inner chain returned. An event does not run what it encloses;
it asks the host to keep it as a binding, and the host runs it when the signal comes.

Nothing is assumed of actions or hosts. An engine calls handlers and has a host, both on one *world*
of any type `ω`; both may fail, and the world they leave behind stays. Most worlds have two parts
that know nothing of each other: the state of the host, and the *scene* of the actions. -/

namespace CueScript

/-- A request to a host: when `target` raises `signal`, run `body`. A binding without a body waits
    for nothing to run. -/
structure Binding (α : Type) where
  signal : String
  target : Target
  body : Chain α
deriving DecidableEq

/-- A host takes bindings and names each by a number, or refuses with a reason. -/
structure Host (α η : Type) where
  subscribe : Binding α → η → Except String Nat × η

/-- What actions do: an action gets its arguments and the scene, and returns a value, or none, or
    fails with a reason. -/
abbrev Performer (α σ : Type) := α → Args → σ → Except String (Option Value) × σ

/-- How handlers are called and what keeps bindings. An engine sees the node that it calls a handler
    for, so that it can keep a record. -/
structure Engine (α ω : Type) where
  invoke : Node α → Handler α → Args → ω → Except String (Option Value) × ω
  host : Host α ω

/-- The state of a host beside the scene of actions. -/
structure World (η σ : Type) where
  host : η
  scene : σ

/-- What executing a command did. -/
inductive Outcome where
  | ran (value : Option Value)
  | bound (id : Nat)
deriving DecidableEq

/-- The number of a binding as text. -/
def bindingName (id : Nat) : String := "#" ++ toString id

/-- Why execution fails. -/
inductive ExecutionError where
  | handler (keyword reason : String)
  | missingValue (keyword : String) (expected : ValueKind) (producer : String)
  | notRunnable (keyword : String) (kind : Kind)
  | notBindable (keyword : String) (kind : Kind)
  | missingTarget (keyword : String)
  | host (keyword reason : String)
deriving DecidableEq, Repr

/-- The wording of an error. -/
def ExecutionError.message : ExecutionError → String
  | handler keyword reason => "\"" ++ keyword ++ "\" failed: " ++ reason
  | missingValue keyword expected producer =>
    "\"" ++ keyword ++ "\" needs a " ++ expected.label ++ " value but \"" ++ producer ++
      "\" produced none"
  | notRunnable keyword kind =>
    "\"" ++ keyword ++ "\" is a " ++ kind.label ++ " keyword and cannot be run"
  | notBindable keyword kind =>
    "\"" ++ keyword ++ "\" is a " ++ kind.label ++ " keyword and cannot be bound"
  | missingTarget keyword => "event \"" ++ keyword ++ "\" has no element to bind to"
  | host keyword reason => "host rejected binding for \"" ++ keyword ++ "\": " ++ reason

/-- What a step of execution answers, with the world that it leaves. -/
abbrev Answer (ω β : Type) := Except ExecutionError β × ω

variable {α η σ ω : Type}

/-! ## Nodes -/

namespace Node

/-- The arguments of a node whose inner chain returned `produced`. The first awaiting slot takes it
    if it is of the slot's kind; a required slot may not go without. -/
def collectArgs (keyword producer : String) (produced : Option Value) :
    List Slot → Except ExecutionError Args
  | [] => .ok []
  | s :: rest =>
    match s.content with
    | .empty => (collectArgs keyword producer produced rest).map (none :: ·)
    | .value v => (collectArgs keyword producer produced rest).map (some v :: ·)
    | .awaited =>
      let taken := produced.filter fun v => v.kind = .value s.kind
      if taken.isNone && s.required then .error (.missingValue keyword s.kind producer)
      else (collectArgs keyword producer none rest).map (taken :: ·)

/-- What an event node binds to. -/
def target? (n : Node α) : EventRole → Option Target
  | .fixed target => some target
  | .namedElement =>
    match n.value? 0 with
    | some (.word _ w) => some (.element w)
    | _ => none

/-- Is this the node of an event? -/
def isEvent (n : Node α) : Bool :=
  match n.definition.role with
  | .event _ => true
  | _ => false

end Node

/-! ## Engines -/

/-- Ask a host to keep the chain that an event node encloses. -/
def Host.bind (host : Host α ω) (n : Node α) (inner : Chain α) (w : ω) : Answer ω Nat :=
  match n.definition.role with
  | .event role =>
    match n.target? role with
    | none => (.error (.missingTarget n.keyword), w)
    | some target =>
      let (result, w') := host.subscribe ⟨n.keyword, target, inner⟩ w
      (result.mapError (.host n.keyword), w')
  | _ => (.error (.notBindable n.keyword n.kind), w)

namespace Engine

/-- Call the handler of a function node. -/
def call (e : Engine α ω) (n : Node α) (role : FunctionRole α) (producer : String)
    (produced : Option Value) (w : ω) : Answer ω (Option Value) :=
  match Node.collectArgs n.keyword producer produced n.slots with
  | .error error => (.error error, w)
  | .ok args =>
    let (result, w') := e.invoke n role.handler args w
    (result.mapError (.handler n.keyword), w')

/-- Run a function node and the chain that it encloses. -/
def run (e : Engine α ω) (n : Node α) (w : ω) : Chain α → Answer ω (Option Value)
  | [] =>
    match n.definition.function? with
    | none => (.error (.notRunnable n.keyword n.kind), w)
    | some role => e.call n role "" none w
  | child :: inner =>
    match n.definition.function? with
    | none => (.error (.notRunnable n.keyword n.kind), w)
    | some role =>
      if child.isEvent then
        match e.host.bind child inner w with
        | (.error error, w') => (.error error, w')
        | (.ok _, w') => e.call n role child.keyword none w'
      else
        match e.run child w inner with
        | (.error error, w') => (.error error, w')
        | (.ok produced, w') => e.call n role child.keyword produced w'

/-- Run a function node, or bind an event node. -/
def execute (e : Engine α ω) (n : Node α) (inner : Chain α) (w : ω) : Answer ω Outcome :=
  if n.isEvent then
    let (result, w') := e.host.bind n inner w
    (result.map .bound, w')
  else
    let (result, w') := e.run n w inner
    (result.map .ran, w')

/-- Execute a chain; one without nodes does nothing. -/
def executeChain (e : Engine α ω) (chain : Chain α) (w : ω) : Answer ω (Option Outcome) :=
  match chain with
  | [] => (.ok none, w)
  | n :: inner =>
    let (result, w') := e.execute n inner w
    (result.map some, w')

/-- Run what a binding holds. Events in it bind again, each time that it is fired. -/
def fire (e : Engine α ω) (b : Binding α) (w : ω) : Answer ω (Option Outcome) :=
  e.executeChain b.body w

/-- Fire bindings one after the other, up to the first that fails. -/
def fireEach (e : Engine α ω) (w : ω) : List (Binding α) → Answer ω Unit
  | [] => (.ok (), w)
  | b :: rest =>
    match e.fire b w with
    | (.error error, w') => (.error error, w')
    | (.ok _, w') => e.fireEach w' rest

end Engine

/-! ## Hosts and actions with states of their own -/

/-- A host beside a scene. -/
def Host.besideScene (host : Host α η) : Host α (World η σ) where
  subscribe b w :=
    let (result, state) := host.subscribe b w.host
    (result, { w with host := state })

/-- The engine of a host and of actions that know nothing of each other. -/
def Engine.of (perform : Performer α σ) (host : Host α η) : Engine α (World η σ) where
  invoke _ handler args w :=
    let (result, scene) := perform handler.action args w.scene
    (result, { w with scene := scene })
  host := host.besideScene

namespace Node

/-- Ask the host to keep the chain that an event node encloses. -/
def bind (host : Host α η) (n : Node α) (inner : Chain α) (w : World η σ) :
    Answer (World η σ) Nat :=
  host.besideScene.bind n inner w

/-- Run a function node and the chain that it encloses. -/
def run (perform : Performer α σ) (host : Host α η) (n : Node α) (w : World η σ)
    (inner : Chain α) : Answer (World η σ) (Option Value) :=
  (Engine.of perform host).run n w inner

/-- Run a function node, or bind an event node. -/
def execute (perform : Performer α σ) (host : Host α η) (n : Node α) (inner : Chain α)
    (w : World η σ) : Answer (World η σ) Outcome :=
  (Engine.of perform host).execute n inner w

end Node

/-- Execute a command; one without keywords does nothing. -/
def Chain.execute (perform : Performer α σ) (host : Host α η) (chain : Chain α)
    (w : World η σ) : Answer (World η σ) (Option Outcome) :=
  (Engine.of perform host).executeChain chain w

/-- Run what a binding holds. -/
def Binding.fire (perform : Performer α σ) (host : Host α η) (b : Binding α)
    (w : World η σ) : Answer (World η σ) (Option Outcome) :=
  (Engine.of perform host).fire b w

end CueScript

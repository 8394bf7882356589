import CueScript.Command.Node
import CueScript.Literal
import CueScript.Settings

set_option autoImplicit false

/-! # Compiling tokens to a command

Tokens are read from left to right. A function or event keyword opens a node; a value goes into the
first empty slot of its kind in the innermost node that has one; any other token is passed over.
Then the chain is closed from the inside out: where a function encloses a function that produces a
value, the first slot of that kind that is still empty awaits it. Last, no required slot may be
empty. Nothing runs here.

A token that is passed over is listed, and a policy says whether a warning of it is given as well.
`compile` leaves the policy out; `compileUnder` compiles as sessions do. -/

namespace CueScript

variable {α : Type}

/-- What a token means. -/
inductive Meaning (α : Type) where
  | keyword (definition : Definition α)
  | value (value : Value)
deriving DecidableEq

/-- Why a command does not compile. -/
inductive CompileError where
  | incomplete (keyword : String) (missing : ValueKind)
  | unexpected (word : String) (kind : Kind)
  | dangling (entry : DanglingEntry)
deriving DecidableEq, Repr

/-- The wording of an error. -/
def CompileError.message : CompileError → String
  | incomplete keyword missing =>
    "\"" ++ keyword ++ "\" is missing a required " ++ missing.label ++ " parameter"
  | unexpected word kind =>
    kind.label ++ " \"" ++ word ++ "\" does not fit any open parameter slot"
  | dangling entry => entry.message

/-- A compiled command: its chain, which is empty if no keyword was found, and the tokens that were
    passed over. -/
structure Command (α : Type) where
  chain : Chain α
  skipped : List String

/-- Did the command contain no keyword? -/
def Command.isEmpty (c : Command α) : Bool := c.chain.isEmpty

/-- The outcome of compiling, with the tokens that were passed over before it was known. -/
structure Compilation (α : Type) where
  passedOver : List String
  result : Except CompileError (Command α)

/-! ## Tokens -/

namespace Registry

/-- What a token means: a registered word, or else a literal. -/
def meaning (r : Registry α) (token : String) : Except DanglingEntry (Option (Meaning α)) :=
  match r.resolve? token with
  | none => .ok ((r.literal? token).map .value)
  | some e =>
    (r.definitionFor e.id e.kind).map fun d =>
      some (if e.kind.isValue then .value (.word e.kind d.id) else .keyword d)

/-- Does the token mean nothing? -/
def isFiller (r : Registry α) (token : String) : Bool :=
  match r.meaning token with
  | .ok none => true
  | _ => false

/-- The tokens of a command that mean nothing, whether or not it compiles. -/
def fillers (r : Registry α) (tokens : List String) : List String := tokens.filter r.isFiller

end Registry

/-! ## Chains -/

namespace Chain

/-- Put a value into the innermost open node with an empty slot of its kind. The open nodes are
    given innermost first. -/
def bind? (v : Value) : List (Node α) → Option (List (Node α))
  | [] => none
  | n :: outer =>
    match n.take? v with
    | some n' => some (n' :: outer)
    | none => (bind? v outer).map (n :: ·)

/-- The kind of value that the outermost node of a chain produces. -/
def produces? (chain : Chain α) : Option ValueKind := chain.head?.bind (·.definition.produces?)

/-- A node around a chain: a function awaits the value that the outermost node of the chain
    produces. -/
def enclose (n : Node α) (inner : Chain α) : Chain α :=
  let awaiting :=
    if n.kind.isWrapper then n
    else
      match inner.produces? with
      | some kind => n.await kind
      | none => n
  awaiting :: inner

/-- The chain of the open nodes, which are given innermost first. -/
def close (opened : List (Node α)) : Chain α :=
  opened.foldl (fun inner n => enclose n inner) []

/-- The first node, from the outside, with a required slot that is empty. -/
def incomplete? (chain : Chain α) : Option CompileError :=
  chain.findSome? fun n => n.missing?.map (CompileError.incomplete n.keyword)

end Chain

/-! ## Commands -/

namespace Registry

/-- Read tokens into the open nodes, innermost first. The first part of the answer holds the tokens
    that were passed over until the end or the first error. -/
def readInto (r : Registry α) (opened : List (Node α)) :
    List String → List String × Except CompileError (List (Node α))
  | [] => ([], .ok opened)
  | token :: rest =>
    match r.meaning token with
    | .error entry => ([], .error (.dangling entry))
    | .ok none =>
      let (passed, result) := r.readInto opened rest
      (token :: passed, result)
    | .ok (some (.keyword d)) => r.readInto (.ofDefinition d :: opened) rest
    | .ok (some (.value v)) =>
      match Chain.bind? v opened with
      | some opened' => r.readInto opened' rest
      | none => ([], .error (.unexpected v.display v.kind))

/-- The command of the open nodes, or the first required slot that is empty. -/
def finish (passed : List String) (opened : List (Node α)) : Except CompileError (Command α) :=
  let chain := Chain.close opened
  match Chain.incomplete? chain with
  | some error => .error error
  | none => .ok ⟨chain, passed⟩

/-- Compile the tokens of one command. -/
def compile (r : Registry α) (tokens : List String) : Compilation α :=
  let (passed, result) := r.readInto [] tokens
  ⟨passed, result.bind (finish passed)⟩

/-! ## Policies for tokens that mean nothing -/

/-- Read tokens under a policy for those that mean nothing: each is put on the list of the tokens
    passed over, and if the policy is to warn, a warning of it is given at once. The answer holds
    the warnings until the end or the first error. -/
def readUnder (r : Registry α) (policy : UnknownWords) (warned passed : List String)
    (opened : List (Node α)) :
    List String → List String × Except CompileError (List String × List (Node α))
  | [] => (warned, .ok (passed, opened))
  | token :: rest =>
    match r.meaning token with
    | .error entry => (warned, .error (.dangling entry))
    | .ok none =>
      let warned' := if policy = .warn then warned ++ [token] else warned
      r.readUnder policy warned' (passed ++ [token]) opened rest
    | .ok (some (.keyword d)) => r.readUnder policy warned passed (.ofDefinition d :: opened) rest
    | .ok (some (.value v)) =>
      match Chain.bind? v opened with
      | some opened' => r.readUnder policy warned passed opened' rest
      | none => (warned, .error (.unexpected v.display v.kind))

/-- Compile the tokens of one command under a policy. The answer holds the tokens of which a
    warning was given, and the command. -/
def compileUnder (r : Registry α) (policy : UnknownWords) (tokens : List String) :
    List String × Except CompileError (Command α) :=
  let (warned, result) := r.readUnder policy [] [] [] tokens
  (warned, result.bind fun (passed, opened) => finish passed opened)

end Registry

end CueScript

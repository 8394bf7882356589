import CueScript.Keyword.Target
import CueScript.Value

set_option autoImplicit false

/-! # Keyword definitions

A definition is what a vocabulary knows of a keyword: the words that name it, the first of which is
its id, and its role. A function names an action and the slots of its parameters, an event says what
it binds to, and a literal only stands for itself.

Actions are data. A vocabulary is stated for any type `α` of actions; what an action does is decided
by whoever runs it. -/

namespace CueScript

/-- The arguments of an action, one for each slot: required slots first, then optional ones. A slot
    that nothing filled is `none`. -/
abbrev Args := List (Option Value)

namespace Args

/-- The argument at an index, if the slot exists and holds one. -/
def value? (args : Args) (index : Nat) : Option Value := (args[index]?).join

/-- Does the slot exist, but hold nothing? -/
def isAbsent (args : Args) (index : Nat) : Bool := args[index]? == some none

/-- The word or text at an index. -/
def content? (args : Args) (index : Nat) : Option String :=
  (args.value? index).bind Value.content?

end Args

/-- An action together with the number of arguments that it takes. -/
structure Handler (α : Type) where
  arity : Nat
  action : α
deriving DecidableEq

/-- A parameter slot as a definition declares it. -/
structure SlotSpec where
  kind : ValueKind
  required : Bool
deriving DecidableEq, Repr

/-- What a function keyword declares: its slots, the kind of value that it hands to the keyword
    before it, and its action. -/
structure FunctionRole (α : Type) where
  required : List ValueKind
  optional : List ValueKind
  produces : Option ValueKind
  handler : Handler α
deriving DecidableEq

/-- What an event keyword binds to: always the same target, or the element that a command names. -/
inductive EventRole where
  | fixed (target : Target)
  | namedElement
deriving DecidableEq, Repr

/-- What a keyword does in a command. -/
inductive Role (α : Type) where
  | function (role : FunctionRole α)
  | event (role : EventRole)
  | literal (kind : ValueKind)
deriving DecidableEq

/-- A keyword of a vocabulary. -/
structure Definition (α : Type) where
  id : String
  aliases : List String
  role : Role α
deriving DecidableEq

namespace Definition

variable {α : Type}

/-- Every word that names the keyword; the id comes first. -/
def words (d : Definition α) : List String := d.id :: d.aliases

/-- The kind of the keyword. -/
def kind (d : Definition α) : Kind :=
  match d.role with
  | .function _ => .function
  | .event _ => .event
  | .literal k => .value k

/-- The declarations of a function keyword. -/
def function? (d : Definition α) : Option (FunctionRole α) :=
  match d.role with
  | .function role => some role
  | _ => none

/-- The kind of value that the keyword hands to the one before it. -/
def produces? (d : Definition α) : Option ValueKind := d.function?.bind (·.produces)

/-- The slots, in order. An event on a named element takes the element in a slot of its own. -/
def slots (d : Definition α) : List SlotSpec :=
  match d.role with
  | .function role =>
    role.required.map (fun k => ⟨k, true⟩) ++ role.optional.map (fun k => ⟨k, false⟩)
  | .event .namedElement => [⟨.element, true⟩]
  | .event (.fixed _) => []
  | .literal _ => []

end Definition

end CueScript

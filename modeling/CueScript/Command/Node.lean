import CueScript.Registry

set_option autoImplicit false

/-! # The nodes of a command

A command is a chain of nodes, outermost first: each function or event keyword opens one, and each
node encloses those after it. A node holds a slot for every slot that its definition declares. A
slot is empty, or holds a value, or awaits the value that the next inner node produces when it
runs. -/

namespace CueScript

/-- What a slot holds. -/
inductive Content where
  | empty
  | value (value : Value)
  | awaited
deriving DecidableEq

/-- A parameter slot of a node. -/
structure Slot where
  kind : ValueKind
  required : Bool
  content : Content
deriving DecidableEq

namespace Slot

/-- A declared slot, with nothing in it. -/
def ofSpec (spec : SlotSpec) : Slot := ⟨spec.kind, spec.required, .empty⟩

/-- Is there nothing in the slot? -/
def isEmpty (s : Slot) : Bool := s.content = .empty

/-- Is the slot empty and of this kind? -/
def isOpenFor (s : Slot) (kind : Kind) : Bool := .value s.kind = kind && s.isEmpty

/-- Put something into the first slot that is empty and of the given kind. -/
def fillFirst? (kind : Kind) (content : Content) : List Slot → Option (List Slot)
  | [] => none
  | s :: rest =>
    if s.isOpenFor kind then some ({ s with content := content } :: rest)
    else (fillFirst? kind content rest).map (s :: ·)

end Slot

/-- An invocable keyword of a command, with its slots. -/
structure Node (α : Type) where
  definition : Definition α
  slots : List Slot
deriving DecidableEq

namespace Node

variable {α : Type}

/-- A node with all its slots empty. -/
def ofDefinition (d : Definition α) : Node α := ⟨d, d.slots.map Slot.ofSpec⟩

/-- The id of the keyword. -/
def keyword (n : Node α) : String := n.definition.id

/-- The kind of the keyword. -/
def kind (n : Node α) : Kind := n.definition.kind

/-- The value in a slot. -/
def value? (n : Node α) (index : Nat) : Option Value :=
  match n.slots[index]? with
  | some ⟨_, _, .value v⟩ => some v
  | _ => none

/-- The node with a value in its first empty slot of the value's kind, if it has one. -/
def take? (n : Node α) (v : Value) : Option (Node α) :=
  (Slot.fillFirst? v.kind (.value v) n.slots).map fun slots => { n with slots := slots }

/-- The node with its first empty slot of the kind awaiting a value; unchanged if it has none. -/
def await (n : Node α) (kind : ValueKind) : Node α :=
  match Slot.fillFirst? (.value kind) .awaited n.slots with
  | some slots => { n with slots := slots }
  | none => n

/-- The kind of the first required slot that is still empty. -/
def missing? (n : Node α) : Option ValueKind :=
  (n.slots.find? fun s => s.required && s.isEmpty).map Slot.kind

end Node

/-- The nodes of a command, outermost first. -/
abbrev Chain (α : Type) := List (Node α)

end CueScript

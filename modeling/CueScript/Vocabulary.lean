import CueScript.Registry
import CueScript.Engine.Execute
import CueScript.Stage

set_option autoImplicit false

/-! # The basic vocabulary

The keywords that every session starts with: five functions that act on the stage, two events, and
the shapes, colors, positions, elements and directions that their slots take. -/

namespace CueScript

/-- What the functions of the basic vocabulary do on the stage. -/
inductive StageAction where
  | create
  | fill
  | write
  | add
  | move
deriving DecidableEq, Repr

namespace StageAction

/-- Every action, in the order in which the vocabulary introduces them. -/
def all : List StageAction := [create, fill, write, add, move]

/-- The name by which catalogs refer to the action. -/
def name : StageAction → String
  | create => "create"
  | fill => "fill"
  | write => "write"
  | add => "add"
  | move => "move"

/-- The number of its arguments. -/
def arity : StageAction → Nat
  | create => 4
  | fill => 2
  | write => 2
  | add => 2
  | move => 1

/-- The action with its arity. -/
def handler (a : StageAction) : Handler StageAction := ⟨a.arity, a⟩

/-- The element that text goes to when a command names none. -/
def defaultElement : String := "page"

/-- The word or text at an index, which an action cannot do without. -/
def needed (args : Args) (index : Nat) : Except String String :=
  match args.content? index with
  | some s => .ok s
  | none => .error "missing argument"

/-- The argument at an index as it is shown. -/
def shown? (args : Args) (index : Nat) : Option String := (args.value? index).map Value.display

/-- The argument at an index, if it is a dimension. -/
def dimension? (args : Args) (index : Nat) : Option Dimension :=
  match args.value? index with
  | some (.dimension d) => some d
  | _ => none

/-- A new stage, with nothing to return, or the reason why there is none. -/
def done : Except StageError Stage → Except String (Option Value × Stage)
  | .ok s => .ok (none, s)
  | .error e => .error e.message

/-- What an action does with its arguments: the value that it returns and the stage that it leaves,
    or why it fails. -/
def act (a : StageAction) (args : Args) (s : Stage) : Except String (Option Value × Stage) :=
  match a with
  | create => do
    let shape ← needed args 0
    let (handle, s') := s.draw shape (dimension? args 1) (shown? args 2) (shown? args 3)
    return (some (.word (.value .shape) handle), s')
  | fill => do
    let shape ← needed args 0
    done (s.fill shape ((shown? args 1).getD ""))
  | write => do
    let text ← needed args 0
    let element ← needed args 1
    return (none, s.write element text)
  | add =>
    match args.content? 1 with
    | some text => .ok (none, s.append ((args.content? 0).getD defaultElement) text)
    | none => .error "Add what?"
  | move => do
    let direction ← needed args 0
    done (s.move direction)

/-- The actions as a performer: a failing action leaves the stage as it was. -/
def perform : Performer StageAction Stage := fun a args s =>
  match a.act args s with
  | .ok (value, s') => (.ok value, s')
  | .error reason => (.error reason, s)

end StageAction

namespace Vocabulary

/-- The functions. -/
def functions : List (Draft StageAction) :=
  [{ kind := some .function, words := ["create", "make", "draw"],
     required := some [.value .shape],
     optional := [.value .dimension, .value .color, .value .position],
     produces := some (.value .shape), handler := some StageAction.create.handler },
   { kind := some .function, words := ["fill", "paint"],
     required := some [.value .shape, .value .color],
     handler := some StageAction.fill.handler },
   { kind := some .function, words := ["write", "say"],
     required := some [.value .string, .value .element],
     handler := some StageAction.write.handler },
   { kind := some .function, words := ["add", "append"],
     optional := [.value .element, .value .string],
     handler := some StageAction.add.handler },
   { kind := some .function, words := ["move", "shift"],
     required := some [.value .direction],
     handler := some StageAction.move.handler }]

/-- The events. -/
def events : List (Draft StageAction) :=
  [{ kind := some .event, words := ["load", "loads", "loaded"],
     target := some (.host "document") },
   { kind := some .event, words := ["click", "clicks", "clicked"], namedElement := true }]

/-- The value words, those with the same meaning together. -/
def literals : List (ValueKind × List String) :=
  [(.shape, ["circle", "round"]), (.shape, ["block", "square", "box"]), (.shape, ["triangle"]),
   (.color, ["red"]), (.color, ["green"]), (.color, ["blue"]), (.color, ["yellow"]),
   (.color, ["black"]), (.color, ["white"]),
   (.position, ["center", "middle"]), (.position, ["above"]), (.position, ["below"]),
   (.element, ["banner", "header", "top"]), (.element, ["sidebar"]),
   (.element, ["footer", "bottom"]),
   (.direction, ["up", "north"]), (.direction, ["down", "south"]), (.direction, ["left", "west"]),
   (.direction, ["right", "east"])]

/-- Every keyword of the basic vocabulary. -/
def drafts : List (Draft StageAction) :=
  functions ++ events ++ literals.map fun (kind, words) => { kind := some (.value kind), words }

end Vocabulary

end CueScript

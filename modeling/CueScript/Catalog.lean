import CueScript.Json.Decode
import CueScript.Registry
import CueScript.Storage

set_option autoImplicit false

/-! # Catalogs

A catalog declares keywords as data. A declaration calls kinds, targets and actions by their names;
actions are looked up in a table of handlers. Loading registers the declarations one after the
other and stops at the first that is refused; those before it stay registered. -/

namespace CueScript

/-- A declared keyword. -/
structure Declaration where
  kind : Option String := none
  words : List String := []
  required : Option (List String) := none
  optional : List String := []
  produces : Option String := none
  handler : Option String := none
  target : Option String := none
  namedElement : Bool := false
deriving DecidableEq, Repr

/-- A list of declared keywords. -/
structure Catalog where
  declarations : List Declaration
deriving DecidableEq, Repr

/-- Actions by the names that catalogs use. -/
abbrev HandlerTable (α : Type) := Table String (Handler α)

/-- The names of a table in alphabetical order. -/
def HandlerTable.names {α : Type} (t : HandlerTable α) : List String :=
  t.keys.mergeSort fun a b => a ≤ b

/-- A declaration that is refused: its place in the catalog, counted from one, its words, and the
    reason. -/
structure RefusedDeclaration where
  position : Nat
  words : List String
  error : RegistrationError
deriving DecidableEq, Repr

/-- The words of the declaration as text. -/
def RefusedDeclaration.keywords (e : RefusedDeclaration) : String := ", ".intercalate e.words

/-- The wording of the refusal. -/
def RefusedDeclaration.message (e : RefusedDeclaration) : String :=
  "catalog declaration #" ++ toString e.position ++ " (" ++ e.keywords ++ "): " ++ e.error.message

/-- A kind by its name. -/
def kindNamed (name : String) : Except DefinitionFault Kind :=
  match Kind.named? name with
  | some k => .ok k
  | none => .error (.unknownKind name)

/-- Kinds by their names, up to the first unknown one. -/
def kindsNamed : List String → Except DefinitionFault (List Kind)
  | [] => .ok []
  | name :: rest => do
    let k ← kindNamed name
    let ks ← kindsNamed rest
    return k :: ks

/-- Apply a function that may fail to a value that may be absent. -/
def onPresent {β γ ε : Type} (f : β → Except ε γ) : Option β → Except ε (Option γ)
  | none => .ok none
  | some b => (f b).map some

namespace Declaration

variable {α : Type}

/-- The first word, by which errors call the keyword. -/
def name (d : Declaration) : String := d.words.headD ""

/-- The kind of the declared keyword. -/
def draftKind (d : Declaration) : Except RegistrationError (Option Kind) :=
  onPresent (fun name => (kindNamed name).mapError fun _ => .unsupportedKind name) d.kind

/-- The other names of a declaration, looked up. -/
def draftOf (d : Declaration) (handlers : HandlerTable α) (kind : Option Kind) :
    Except DefinitionFault (Draft α) := do
  let handler ← onPresent
    (fun name =>
      match handlers.find? name with
      | some h => .ok h
      | none => .error (.unknownHandler name)) d.handler
  let target ← onPresent (fun text => (Target.read text).mapError .badTarget) d.target
  let required ← onPresent kindsNamed d.required
  let optional ← kindsNamed d.optional
  let produces ← onPresent kindNamed d.produces
  return { kind, words := d.words, required, optional, produces, handler, target,
           namedElement := d.namedElement }

/-- The draft of a declaration, with all names looked up. -/
def draft (d : Declaration) (handlers : HandlerTable α) : Except RegistrationError (Draft α) := do
  let kind ← d.draftKind
  (d.draftOf handlers kind).mapError (.invalid d.name)

end Declaration

namespace Registry

variable {α : Type}

/-- Register one declaration. -/
def declare (r : Registry α) (handlers : HandlerTable α) (d : Declaration) :
    Except RegistrationError (Definition α × Registry α) := do
  let draft ← d.draft handlers
  r.register draft

/-- Register declarations one after the other; the first of them has the given place. The answer
    tells how many there were, or which one was refused. -/
def loadFrom (r : Registry α) (handlers : HandlerTable α) (position : Nat) :
    List Declaration → Except RefusedDeclaration Nat × Registry α
  | [] => (.ok (position - 1), r)
  | d :: rest =>
    match r.declare handlers d with
    | .error e => (.error ⟨position, d.words, e⟩, r)
    | .ok (_, r') => r'.loadFrom handlers (position + 1) rest

/-- Register every declaration of a catalog. -/
def load (r : Registry α) (handlers : HandlerTable α) (c : Catalog) :
    Except RefusedDeclaration Nat × Registry α :=
  r.loadFrom handlers 1 c.declarations

end Registry

end CueScript

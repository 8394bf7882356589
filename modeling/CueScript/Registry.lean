import CueScript.Keyword.Admission
import CueScript.Table

set_option autoImplicit false

/-! # The registry

A registry is a vocabulary: an index from every word to the id and kind of its keyword, and a
library with a shelf for each kind, on which the definitions of that kind stand under their ids.
Keywords come in one at a time; a draft that is refused changes nothing, because `register` returns
a registry only when it succeeds. -/

namespace CueScript

/-- What the index says of a word. -/
structure Entry where
  id : String
  kind : Kind
deriving DecidableEq, Repr

/-- An entry on which index and library do not agree. -/
structure DanglingEntry where
  id : String
  kind : Kind
deriving DecidableEq, Repr

/-- The wording of this error. -/
def DanglingEntry.message (e : DanglingEntry) : String :=
  "internal error: keyword \"" ++ e.id ++ "\" (" ++ e.kind.label ++
    ") is indexed but missing from the library"

/-- The definitions of one kind, under their ids. -/
abbrev Shelf (α : Type) := Table String (Definition α)

/-- A vocabulary whose actions are of type `α`. -/
structure Registry (α : Type) where
  index : Table String Entry
  library : Table Kind (Shelf α)

namespace Registry

variable {α : Type}

/-- The vocabulary without keywords. -/
def empty : Registry α := ⟨.empty, .empty⟩

/-! ## Looking up -/

/-- What the index says of a word. Most words of a sentence are not in it. -/
def resolve? (r : Registry α) (word : String) : Option Entry := r.index.find? word

/-- Is the word in the index? -/
def contains (r : Registry α) (word : String) : Bool := r.index.contains word

/-- The shelf of a kind; it is empty while no keyword of the kind is registered. -/
def shelf (r : Registry α) (kind : Kind) : Shelf α := (r.library.find? kind).getD .empty

/-- The definition with the given id and kind. -/
def definitionFor (r : Registry α) (id : String) (kind : Kind) :
    Except DanglingEntry (Definition α) :=
  match (r.shelf kind).find? id with
  | some d => .ok d
  | none => .error ⟨id, kind⟩

/-- The definition that a word names, if it is in the index. -/
def lookup (r : Registry α) (word : String) : Except DanglingEntry (Option (Definition α)) :=
  match r.resolve? word with
  | none => .ok none
  | some e => (r.definitionFor e.id e.kind).map some

/-- How many keywords there are; a keyword with aliases counts once. -/
def size (r : Registry α) : Nat := r.library.values.foldr (fun shelf n => shelf.size + n) 0

/-- Is no word registered? -/
def isEmpty (r : Registry α) : Bool := r.index.isEmpty

/-- Every definition, in the order of registration: what stands behind the words of the index that
    are ids. -/
def definitions (r : Registry α) : List (Definition α) :=
  (r.index.entries.filter fun (w, e) => w = e.id).filterMap fun (_, e) =>
    (r.definitionFor e.id e.kind).toOption

/-- The definitions of one kind, in the order of registration. -/
def definitionsOf (r : Registry α) (kind : Kind) : List (Definition α) := (r.shelf kind).values

/-! ## Consistency -/

/-- The first entry of the index without a definition of its kind. -/
def dangling? (r : Registry α) : Option DanglingEntry :=
  r.index.values.findSome? fun e =>
    match r.definitionFor e.id e.kind with
    | .error fault => some fault
    | .ok d => if d.kind = e.kind then none else some ⟨e.id, e.kind⟩

/-- Does the index know the definition under its id and under all its words? -/
def indexes (r : Registry α) (kind : Kind) (id : String) (d : Definition α) : Bool :=
  r.resolve? id = some ⟨id, kind⟩ && d.words.all fun w => (r.resolve? w).map Entry.id = some id

/-- The first definition of the library that the index does not know. -/
def unindexed? (r : Registry α) : Option DanglingEntry :=
  r.library.entries.findSome? fun (kind, shelf) =>
    shelf.entries.findSome? fun (id, d) => if r.indexes kind id d then none else some ⟨id, kind⟩

/-- Check that every entry has a definition, and that every definition is indexed. -/
def verify (r : Registry α) : Except DanglingEntry Unit :=
  match r.dangling?.or r.unindexed? with
  | some fault => .error fault
  | none => .ok ()

/-- Do index and library agree? -/
def isConsistent (r : Registry α) : Bool := r.verify.toOption.isSome

/-! ## Registering -/

/-- The first word that is taken: by a keyword of the registry, or by an earlier word of the same
    list, which `owner` begins. -/
def duplicate? (r : Registry α) (owner : String) (before : List String) :
    List String → Option RegistrationError
  | [] => none
  | w :: ws =>
    match r.resolve? w with
    | some e => some (.duplicateKeyword w e.id)
    | none =>
      if w ∈ before then some (.duplicateKeyword w owner)
      else r.duplicate? owner (w :: before) ws

/-- The definition that a draft becomes in this registry, or why it is refused. -/
def accept (r : Registry α) (d : Draft α) : Except RegistrationError (Definition α) :=
  match d.kind, d.words with
  | none, words => .error (.missingKind words)
  | some kind, [] => .error (.noWords kind)
  | some kind, id :: aliases =>
    match (id :: aliases).findSome? Draft.wordFault?, r.duplicate? id [] (id :: aliases) with
    | some fault, _ => .error (.invalid id fault)
    | none, some error => .error error
    | none, none => (d.role kind).map fun role => ⟨id, aliases, role⟩

/-- The registry with one more definition, indexed under each of its words. -/
def add (r : Registry α) (d : Definition α) : Registry α where
  index := d.words.foldl (fun t w => t.insert w ⟨d.id, d.kind⟩) r.index
  library := r.library.insert d.kind ((r.shelf d.kind).insert d.id d)

/-- Register a draft: the new definition and the registry that holds it. -/
def register (r : Registry α) (d : Draft α) :
    Except RegistrationError (Definition α × Registry α) :=
  (r.accept d).map fun definition => (definition, r.add definition)

/-- Register drafts one after the other, up to the first that is refused. -/
def registerAll (r : Registry α) : List (Draft α) → Except RegistrationError (Registry α)
  | [] => .ok r
  | d :: rest => do
    let (_, r') ← r.register d
    r'.registerAll rest

end Registry

end CueScript

import CueScript.Catalog
import CueScript.Json.Basic

set_option autoImplicit false

/-! # The format of catalog files

A catalog file is a JSON object whose only field `keywords` lists the declarations. Every field of a
declaration may be left out. Writing always shows the kind and the words of a declaration, and the
other fields where they say something. -/

namespace CueScript

/-! ## Writing -/

/-- A member of an object, if there is a value for it. -/
def optionalMember {β : Type} (name : String) (f : β → Json) : Option β → List (String × Json)
  | none => []
  | some b => [(name, f b)]

/-- A declaration as JSON. -/
def Declaration.toJson (d : Declaration) : Json :=
  .object
    ([("type", .ofOption .string d.kind), ("keywords", .strings d.words)] ++
      optionalMember "required" .strings d.required ++
      (if d.optional.isEmpty then [] else [("optional", .strings d.optional)]) ++
      optionalMember "produces" .string d.produces ++
      optionalMember "handler" .string d.handler ++
      optionalMember "bind_to" .string d.target ++
      if d.namedElement then [("requires_bound_element", .bool true)] else [])

/-- A catalog as JSON. -/
def Catalog.toJson (c : Catalog) : Json :=
  .object [("keywords", .array (c.declarations.map Declaration.toJson))]

/-! ## Reading -/

/-- A list of strings. -/
def Json.Reading.asStrings (r : Json.Reading) : Except Json.Fault (List String) :=
  r.asList Json.Reading.asString

/-- A declaration of which some fields are known. -/
structure Declaration.Partial where
  kind : Option (Option String) := none
  words : Option (List String) := none
  required : Option (Option (List String)) := none
  optional : Option (List String) := none
  produces : Option (Option String) := none
  handler : Option (Option String) := none
  target : Option (Option String) := none
  namedElement : Option Bool := none

/-- The fields of a declaration as JSON. -/
def Declaration.shape : Json.Shape Declaration.Partial where
  name := "KeywordDecl"
  fields :=
    [{ name := "type", required := false, isSet := (·.kind.isSome),
       set := fun r p => do return { p with kind := some (← r.asOptional (·.asString)) } },
     { name := "keywords", required := false, isSet := (·.words.isSome),
       set := fun r p => do return { p with words := some (← r.asStrings) } },
     { name := "required", required := false, isSet := (·.required.isSome),
       set := fun r p => do return { p with required := some (← r.asOptional (·.asStrings)) } },
     { name := "optional", required := false, isSet := (·.optional.isSome),
       set := fun r p => do return { p with optional := some (← r.asStrings) } },
     { name := "produces", required := false, isSet := (·.produces.isSome),
       set := fun r p => do return { p with produces := some (← r.asOptional (·.asString)) } },
     { name := "handler", required := false, isSet := (·.handler.isSome),
       set := fun r p => do return { p with handler := some (← r.asOptional (·.asString)) } },
     { name := "bind_to", required := false, isSet := (·.target.isSome),
       set := fun r p => do return { p with target := some (← r.asOptional (·.asString)) } },
     { name := "requires_bound_element", required := false, isSet := (·.namedElement.isSome),
       set := fun r p => do return { p with namedElement := some (← r.asBool) } }]

/-- Fields that are not known say nothing. -/
def Declaration.Partial.complete (p : Declaration.Partial) : Declaration where
  kind := p.kind.getD none
  words := p.words.getD []
  required := p.required.getD none
  optional := p.optional.getD []
  produces := p.produces.getD none
  handler := p.handler.getD none
  target := p.target.getD none
  namedElement := p.namedElement.getD false

/-- A declaration from JSON. -/
def Declaration.ofReading (r : Json.Reading) : Except Json.Fault Declaration :=
  (Declaration.shape.decode {} r).map Declaration.Partial.complete

/-- A catalog of which the declarations may be known. -/
structure Catalog.Partial where
  declarations : Option (List Declaration) := none

/-- The fields of a catalog as JSON. -/
def Catalog.shape : Json.Shape Catalog.Partial where
  name := "CatalogFile"
  fields :=
    [{ name := "keywords", required := true, isSet := (·.declarations.isSome),
       set := fun r p => do
         return { p with declarations := some (← r.asList Declaration.ofReading) } }]

/-- A catalog from JSON text. -/
def Catalog.ofText (text : String) : Except Json.Fault Catalog :=
  Json.decodeText (fun r => (Catalog.shape.decode {} r).map fun p => ⟨p.declarations.getD []⟩) text

/-! ## Files -/

/-- Why a catalog cannot be loaded. -/
inductive CatalogError where
  | storage (fault : StorageFault)
  | json (fault : Json.Fault)
  | declaration (refused : RefusedDeclaration)

/-- The wording of an error. -/
def CatalogError.message : CatalogError → String
  | storage fault => "I/O error: " ++ fault.message
  | json fault => "catalog JSON error: " ++ fault.message
  | declaration refused => refused.message

/-- Read the catalog in a file. -/
def Catalog.readFile {m : Type → Type} [Monad m] (storage : Storage m) (path : String) :
    m (Except CatalogError Catalog) := do
  match ← storage.read path with
  | .error fault => return .error (.storage fault)
  | .ok text => return (Catalog.ofText text).mapError .json

end CueScript

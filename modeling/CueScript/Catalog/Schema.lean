import CueScript.Json.Basic

set_option autoImplicit false

/-! # The schema of catalog files

The format of catalog files as a JSON schema (draft 7), for editors that check files as they are
written. -/

namespace CueScript.Catalog

/-- A schema that says what a value is and what it is for. -/
def described (description : String) (members : List (String × Json)) : Json :=
  .object (("description", .string description) :: members)

/-- Values of one of several types. -/
def typed (types : List String) : String × Json :=
  ("type", match types with
    | [one] => .string one
    | several => .strings several)

/-- A list of strings. -/
def stringItems : String × Json := ("items", .object [typed ["string"]])

/-- The fields of a declaration. -/
def declarationProperties : List (String × Json) :=
  [("type", described "Keyword type name, e.g. \"FUNCTION\", \"event\", \"Shape\"."
      [("default", .null), typed ["string", "null"]]),
   ("keywords", described "Surface words; the first is the canonical id."
      [("default", .array []), typed ["array"], stringItems]),
   ("required", .object [typed ["array", "null"], stringItems]),
   ("optional", .object [typed ["array"], stringItems]),
   ("produces", .object [typed ["string", "null"]]),
   ("handler", described "Name of a native handler in the handler table."
      [typed ["string", "null"]]),
   ("bind_to", described "Host object name, or `element:<name>`." [typed ["string", "null"]]),
   ("requires_bound_element", .object [typed ["boolean"]])]

/-- The schema of a declaration. -/
def declarationSchema : Json :=
  described ("One keyword declaration. Keywords always go under `keywords`; other spellings " ++
      "(`keyword`, `words`, `word`) are rejected as unknown fields.")
    [typed ["object"], ("properties", .object declarationProperties),
     ("additionalProperties", .bool false)]

/-- The schema of a catalog file. -/
def schema : Json :=
  .object
    [("$schema", .string "http://json-schema.org/draft-07/schema#"),
     ("title", .string "CatalogFile"), typed ["object"],
     ("required", .strings ["keywords"]),
     ("properties", .object
       [("keywords", .object
         [typed ["array"], ("items", .object [("$ref", .string "#/definitions/KeywordDecl")])])]),
     ("additionalProperties", .bool false),
     ("definitions", .object [("KeywordDecl", declarationSchema)])]

end CueScript.Catalog

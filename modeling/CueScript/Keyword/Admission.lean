import CueScript.Keyword.Definition

set_option autoImplicit false

/-! # Admission of keywords

A draft is a keyword as someone proposes it. It becomes a definition if its words are single words
and its fields fit its kind: slots, product and action belong to functions, targets to events, and
values have neither. Loops and conditionals are never admitted. -/

namespace CueScript

/-- A proposed keyword. Absent `required` means that nothing was said about required slots, which
    for a function is the same as none. -/
structure Draft (α : Type) where
  kind : Option Kind := none
  words : List String := []
  required : Option (List Kind) := none
  optional : List Kind := []
  produces : Option Kind := none
  handler : Option (Handler α) := none
  target : Option Target := none
  namedElement : Bool := false

/-- The fields of a draft that only functions have. -/
inductive FunctionField where
  | handler
  | required
  | optional
  | produces
deriving DecidableEq, Repr

/-- The name of the field in a catalog. -/
def FunctionField.name : FunctionField → String
  | handler => "handler"
  | required => "required"
  | optional => "optional"
  | produces => "produces"

/-- What is wrong with the content of a draft. -/
inductive DefinitionFault where
  | blankWord
  | spacedWord (word : String)
  | targetOutsideEvent
  | missingHandler
  | parameterKind (kind : Kind)
  | productKind (kind : Kind)
  | arity (taken declared : Nat)
  | functionOnly (field : FunctionField)
  | conflictingTargets
  | missingTarget
  | unknownKind (name : String)
  | unknownHandler (name : String)
  | badTarget (fault : Target.Fault)
deriving DecidableEq, Repr

/-- The wording of a fault. -/
def DefinitionFault.message : DefinitionFault → String
  | blankWord => "blank keyword"
  | spacedWord word => "keyword \"" ++ word ++ "\" contains whitespace"
  | targetOutsideEvent => "bind targets are only valid on EVENT keywords"
  | missingHandler => "missing handler"
  | parameterKind kind => kind.label ++ " cannot be a parameter type"
  | productKind kind => kind.label ++ " cannot be produced as a value"
  | arity taken declared =>
    "handler takes " ++ toString taken ++ " argument(s) but " ++ toString declared ++
      " parameter slot(s) are declared"
  | functionOnly field => "`" ++ field.name ++ "` is only valid on FUNCTION keywords"
  | conflictingTargets => "bind target conflicts with requires_bound_element"
  | missingTarget => "no bind target"
  | unknownKind name => Kind.unknownMessage name
  | unknownHandler name => "no native handler named \"" ++ name ++ "\""
  | badTarget fault => fault.message

/-- Why a keyword is not registered. -/
inductive RegistrationError where
  | duplicateKeyword (word owner : String)
  | missingKind (words : List String)
  | noWords (kind : Kind)
  | unsupportedKind (name : String)
  | invalid (keyword : String) (fault : DefinitionFault)
deriving DecidableEq, Repr

/-- The wording of an error. -/
def RegistrationError.message : RegistrationError → String
  | duplicateKeyword word owner =>
    "the keyword \"" ++ word ++ "\" already exists (owned by \"" ++ owner ++
      "\"), please choose another"
  | missingKind words => "no type specified for keyword(s): " ++ ", ".intercalate words
  | noWords kind => "no keywords specified in " ++ kind.label ++ " definition"
  | unsupportedKind name => "type not supported: " ++ name
  | invalid keyword fault => "invalid definition for \"" ++ keyword ++ "\": " ++ fault.message

namespace Draft

variable {α : Type}

/-- The first word, by which errors call the keyword. -/
def name (d : Draft α) : String := d.words.headD ""

/-- What is wrong with a word: it is blank, or not a single word. -/
def wordFault? (word : String) : Option DefinitionFault :=
  if Text.allBlank word.toList then some .blankWord
  else if word.toList.any Text.isBlank then some (.spacedWord word)
  else none

/-- The value kinds of a list of kinds, or the first kind that is none. -/
def valueKinds : List Kind → Except Kind (List ValueKind)
  | [] => .ok []
  | k :: ks =>
    match k.valueKind? with
    | none => .error k
    | some v => (valueKinds ks).map (v :: ·)

/-- The first field of the draft that only functions have. -/
def functionField? (d : Draft α) : Option FunctionField :=
  if d.handler.isSome then some .handler
  else if d.required.isSome then some .required
  else if !d.optional.isEmpty then some .optional
  else if d.produces.isSome then some .produces
  else none

/-- Does the draft say what it binds to? -/
def hasTarget (d : Draft α) : Bool := d.target.isSome || d.namedElement

/-- The kind of value that the draft produces. -/
def product (d : Draft α) : Except DefinitionFault (Option ValueKind) :=
  match d.produces with
  | none => .ok none
  | some k =>
    match k.valueKind? with
    | none => .error (.productKind k)
    | some v => .ok (some v)

/-- The role with these slots, if the handler takes an argument for each of them. -/
def fittingRole (handler : Handler α) (required optional : List ValueKind)
    (produces : Option ValueKind) : Except DefinitionFault (FunctionRole α) :=
  let declared := required.length + optional.length
  if handler.arity = declared then .ok { required, optional, produces, handler }
  else .error (.arity handler.arity declared)

/-- The role of a draft for a function. -/
def functionRole (d : Draft α) : Except DefinitionFault (FunctionRole α) :=
  if d.hasTarget then .error .targetOutsideEvent
  else
    match d.handler with
    | none => .error .missingHandler
    | some handler => do
      let required ← (valueKinds (d.required.getD [])).mapError .parameterKind
      let optional ← (valueKinds d.optional).mapError .parameterKind
      let produces ← d.product
      fittingRole handler required optional produces

/-- The role of a draft for an event. -/
def eventRole (d : Draft α) : Except DefinitionFault EventRole :=
  match d.functionField? with
  | some field => .error (.functionOnly field)
  | none =>
    match d.target, d.namedElement with
    | some target, false => .ok (.fixed target)
    | none, true => .ok .namedElement
    | some _, true => .error .conflictingTargets
    | none, false => .error .missingTarget

/-- Check a draft for a value. -/
def literalFault? (d : Draft α) : Option DefinitionFault :=
  match d.functionField? with
  | some field => some (.functionOnly field)
  | none => if d.hasTarget then some .targetOutsideEvent else none

/-- The role that a draft has as a keyword of the given kind. -/
def role (d : Draft α) (kind : Kind) : Except RegistrationError (Role α) :=
  match kind with
  | .function => (d.functionRole.map .function).mapError (.invalid d.name)
  | .event => (d.eventRole.map .event).mapError (.invalid d.name)
  | .loop => .error (.unsupportedKind kind.label)
  | .conditional => .error (.unsupportedKind kind.label)
  | .value v =>
    match d.literalFault? with
    | some fault => .error (.invalid d.name fault)
    | none => .ok (.literal v)

/-- The draft with its action replaced. -/
def mapAction {β : Type} (f : α → β) (d : Draft α) : Draft β :=
  { kind := d.kind, words := d.words, required := d.required, optional := d.optional,
    produces := d.produces, handler := d.handler.map fun h => ⟨h.arity, f h.action⟩,
    target := d.target, namedElement := d.namedElement }

end Draft

end CueScript

import CueScript.Registry

set_option autoImplicit false

/-! # Literals

Tokens that mean a value without being registered: quoted text, a color, a dimension, and a word
with its kind in front, such as `shape=circle`. The forms are tried in this order, and a token that
begins with `#` can only be a color. -/

namespace CueScript

/-- What lies between the quotes of a text that begins and ends with one. -/
def unquote? : List Char → Option (List Char)
  | '"' :: rest => Text.dropSuffix? ['"'] rest
  | _ => none

/-- Read a color, whose first character tells it. -/
def Value.color? (cs : List Char) : Option Value := (Color.read? cs).map color

/-- Read a dimension. -/
def Value.dimension? (cs : List Char) : Option Value := (Dimension.read? cs).map dimension

namespace Registry

variable {α : Type}

/-- The id of a word, if it is registered with the given kind; otherwise the word itself. -/
def canonical (r : Registry α) (kind : Kind) (word : String) : String :=
  match r.resolve? word with
  | some e => if e.kind = kind then e.id else word
  | none => word

/-- The value of the given kind that a text after the equals sign means. -/
def typed? (r : Registry α) (kind : ValueKind) (raw : List Char) : Option Value :=
  match kind with
  | .string => some (.text (String.ofList ((unquote? raw).getD raw)))
  | .dimension => Value.dimension? raw
  | .color =>
    if raw.head? = some '#' then Value.color? raw
    else some (.word (.value .color) (r.canonical (.value .color) (String.ofList raw)))
  | k => some (.word (.value k) (r.canonical (.value k) (String.ofList raw)))

/-- A kind, an equals sign, and a value of the kind. -/
def assigned? (r : Registry α) (cs : List Char) : Option Value := do
  let (name, raw) ← Text.cutAtFirst '=' cs
  let kind ← (Kind.named? (String.ofList name)).bind Kind.valueKind?
  if raw.isEmpty then none else r.typed? kind raw

/-- The value that a token means by its form alone. -/
def literal? (r : Registry α) (token : String) : Option Value :=
  let cs := token.toList
  match unquote? cs with
  | some inner => some (.text (String.ofList inner))
  | none =>
    if cs.head? = some '#' then Value.color? cs
    else (Value.dimension? cs).or (r.assigned? cs)

end Registry

end CueScript

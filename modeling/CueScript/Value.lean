import CueScript.Color
import CueScript.Dimension
import CueScript.Json.Basic
import CueScript.Kind

set_option autoImplicit false

/-! # Values

What a parameter slot holds and what an action receives and returns: a word of the vocabulary,
free text, a dimension, or a color. A word carries its kind; the other three have a kind of their
own. -/

namespace CueScript

/-- A value. A word is the first word of its keyword, or free text after a kind and an equals
    sign. -/
inductive Value where
  | word (kind : Kind) (word : String)
  | text (content : String)
  | dimension (length : Dimension)
  | color (color : Color)
deriving DecidableEq

namespace Value

/-- The kind of slot that the value fits. -/
def kind : Value → Kind
  | word k _ => k
  | text _ => .value .string
  | dimension _ => .value .dimension
  | color _ => .value .color

/-- The content of a word or a text. -/
def content? : Value → Option String
  | word _ w => some w
  | text t => some t
  | dimension _ => none
  | color _ => none

/-- The value as it is shown: free text stands in quotes. -/
def display : Value → String
  | word _ w => w
  | text t => "\"" ++ t ++ "\""
  | dimension d => d.text
  | color c => c.text

/-- The value as a JSON object, tagged with what it is. -/
def toJson : Value → Json
  | word k w =>
    .object [("kind", .string "word"), ("ty", .string k.code), ("word", .string w)]
  | text t => .object [("kind", .string "text"), ("text", .string t)]
  | dimension d =>
    .object [("kind", .string "dimension"), ("amount", .real d.amount),
      ("unit", .string d.unit.code)]
  | color c =>
    .object [("kind", .string "color"), ("r", .count c.red.toNat), ("g", .count c.green.toNat),
      ("b", .count c.blue.toNat)]

end Value

end CueScript

import CueScript.Number.Binary64

set_option autoImplicit false

/-! # JSON values

The values that documents are made of. Whole numbers and floating point numbers are told apart,
and an object keeps its members in the order in which they are written. -/

namespace CueScript

/-- A JSON value. -/
inductive Json where
  | null
  | bool (value : Bool)
  | integer (value : Int)
  | real (value : Number.Binary64)
  | string (value : String)
  | array (items : List Json)
  | object (members : List (String × Json))

namespace Json

/-- The value, or `null` if there is none. -/
def ofOption {α : Type} (f : α → Json) : Option α → Json
  | none => null
  | some a => f a

/-- A whole number that counts something. -/
def count (n : Nat) : Json := integer n

/-- A list of texts. -/
def strings (texts : List String) : Json := array (texts.map string)

end Json

end CueScript

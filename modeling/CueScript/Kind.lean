import CueScript.Text.Blank
import CueScript.Text.Lowercase

set_option autoImplicit false

/-! # Kinds of keywords

Every keyword has a kind. Four kinds *open* a part of a command: a function runs an action, an
event waits for a signal, and loops and conditionals are reserved names. The other seven are
*value kinds*: a keyword of such a kind stands for a value, and a parameter slot takes values of
one of them. -/

namespace CueScript

/-- The kinds of values, which are also the kinds of parameter slots. -/
inductive ValueKind where
  | string
  | color
  | shape
  | dimension
  | position
  | element
  | direction
deriving DecidableEq, Repr

/-- The kinds of keywords. -/
inductive Kind where
  | function
  | event
  | loop
  | conditional
  | value (kind : ValueKind)
deriving DecidableEq, Repr

namespace Kind

/-- Every kind, in the order in which summaries list them. -/
def all : List Kind :=
  [function, event, loop, conditional, value .string, value .color, value .shape,
    value .dimension, value .position, value .element, value .direction]

/-- The name by which scripts and catalogs call the kind. -/
def slug : Kind → String
  | function => "function"
  | event => "event"
  | loop => "loop"
  | conditional => "conditional"
  | value .string => "string"
  | value .color => "color"
  | value .shape => "shape"
  | value .dimension => "dimension"
  | value .position => "position"
  | value .element => "element"
  | value .direction => "direction"

/-- The name in messages and outlines. -/
def label : Kind → String
  | function => "Function"
  | event => "Event"
  | loop => "Loop"
  | conditional => "Conditional"
  | value .string => "String"
  | value .color => "Color"
  | value .shape => "Shape"
  | value .dimension => "Dimension"
  | value .position => "Position"
  | value .element => "Element"
  | value .direction => "Direction"

/-- The name in JSON documents and in signatures. -/
def code : Kind → String
  | function => "FUNCTION"
  | event => "EVENT"
  | loop => "LOOP"
  | conditional => "CONDITIONAL"
  | value .string => "STRING"
  | value .color => "COLOR"
  | value .shape => "SHAPE"
  | value .dimension => "DIMENSION"
  | value .position => "POSITION"
  | value .element => "ELEMENT"
  | value .direction => "DIRECTION"

theorem mem_all (k : Kind) : k ∈ all := by
  cases k with
  | value v => cases v <;> decide
  | _ => decide

theorem code_injective {a b : Kind} (h : a.code = b.code) : a = b := by
  have all_eq : ∀ x ∈ all, ∀ y ∈ all, x.code = y.code → x = y := by decide
  exact all_eq a (mem_all a) b (mem_all b) h

/-- The value kind, if values of this kind exist. -/
def valueKind? : Kind → Option ValueKind
  | value v => some v
  | _ => none

/-- Do keywords of this kind stand for values? -/
def isValue (k : Kind) : Bool := k.valueKind?.isSome

/-- Do keywords of this kind open a part of a command? -/
def isInvocable (k : Kind) : Bool := !k.isValue

/-- Do keywords of this kind put off what they enclose until something outside happens? -/
def isWrapper : Kind → Bool
  | event | loop | conditional => true
  | _ => false

/-- The kind of a given name. Blanks around the name and the case of ASCII letters do not matter;
    `if` is another name for conditionals. -/
def named? (name : String) : Option Kind :=
  let wanted := Text.lowercaseAscii (Text.trim name)
  if wanted = "if" then some conditional else all.find? (·.slug = wanted)

/-- What is said of a name that no kind has. -/
def unknownMessage (name : String) : String :=
  "unknown keyword type \"" ++ name ++ "\""

end Kind

/-- The name of a value kind in messages. -/
def ValueKind.label (v : ValueKind) : String := (Kind.value v).label

/-- The name of a value kind in JSON documents. -/
def ValueKind.code (v : ValueKind) : String := (Kind.value v).code

end CueScript

import CueScript.Json.Basic
import CueScript.Text.Blank
import CueScript.Text.Cut

set_option autoImplicit false

/-! # What events bind to

An event binds either to an object of the host, such as `document`, or to an element that a command
names. As text an element has `element:` in front. -/

namespace CueScript

/-- What raises the signal that an event waits for. -/
inductive Target where
  | host (name : String)
  | element (name : String)
deriving DecidableEq, Repr

namespace Target

/-- Why a text names no target. -/
inductive Fault where
  | empty
  | unnamedElement
deriving DecidableEq, Repr

/-- The wording of a fault. -/
def Fault.message : Fault → String
  | empty => "empty bind target"
  | unnamedElement => "element bind target needs a name"

/-- What stands in front of the name of an element. -/
def elementMark : String := "element:"

/-- The target that a text names; blanks around it do not count. -/
def read (s : String) : Except Fault Target :=
  let name := Text.trimBy Text.isBlank s.toList
  if name.isEmpty then .error .empty
  else
    match Text.dropPrefix? elementMark.toList name with
    | some [] => .error .unnamedElement
    | some rest => .ok (.element (String.ofList rest))
    | none => .ok (.host (String.ofList name))

/-- The target as text. -/
def text : Target → String
  | host name => name
  | element name => elementMark ++ name

/-- The target as a JSON object. -/
def toJson : Target → Json
  | host name => .object [("kind", .string "host"), ("name", .string name)]
  | element name => .object [("kind", .string "element"), ("name", .string name)]

end Target

end CueScript

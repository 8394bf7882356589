import CueScript.Dimension
import CueScript.Json.Basic

set_option autoImplicit false

/-! # The stage

What the basic vocabulary draws and writes: drawings, each under a handle of its own, and captions
on named elements. The latest drawing can be moved in steps, any drawing can be filled with a
color, and text can be added to the latest caption of an element. -/

namespace CueScript

/-- A shape on the stage. Its offset counts the steps to the right and down that it was moved. -/
structure Drawing where
  handle : String
  shape : String
  size : Option Dimension
  color : Option String
  position : Option String
  right : Int
  down : Int
deriving DecidableEq

/-- A text on an element. -/
structure Caption where
  element : String
  text : String
deriving DecidableEq, Repr

/-- The stage: its drawings and captions, in the order in which they were made. -/
structure Stage where
  drawings : List Drawing
  captions : List Caption
deriving DecidableEq

/-- Why something cannot be done on the stage. -/
inductive StageError where
  | unknownShape (name : String)
  | nothingToMove
  | unknownDirection (name : String)
deriving DecidableEq, Repr

/-- The wording of an error. -/
def StageError.message : StageError → String
  | unknownShape name => "no shape called \"" ++ name ++ "\""
  | nothingToMove => "nothing to move"
  | unknownDirection name => "unknown direction \"" ++ name ++ "\""

/-- Change the last element of a list that has the property; nothing if none has. -/
def changeLast? {β : Type} (has : β → Bool) (change : β → β) : List β → Option (List β)
  | [] => none
  | b :: rest =>
    match changeLast? has change rest with
    | some rest' => some (b :: rest')
    | none => if has b then some (change b :: rest) else none

namespace Stage

/-- The stage with nothing on it. -/
def empty : Stage := ⟨[], []⟩

/-- Is there nothing on the stage? -/
def isEmpty (s : Stage) : Bool := s.drawings.isEmpty && s.captions.isEmpty

/-- The handle of a drawing: its shape, and its place in the order of drawing. -/
def handleOf (shape : String) (place : Nat) : String := shape ++ "#" ++ toString place

/-- Draw a shape. The answer is its handle. -/
def draw (shape : String) (size : Option Dimension) (color position : Option String)
    (s : Stage) : String × Stage :=
  let handle := handleOf shape (s.drawings.length + 1)
  (handle, { s with drawings := s.drawings ++ [⟨handle, shape, size, color, position, 0, 0⟩] })

/-- The first drawing with a handle. -/
def drawing? (handle : String) (s : Stage) : Option Drawing :=
  s.drawings.find? (·.handle = handle)

/-- Give a color to the latest drawing that has the name as its handle or as its shape. -/
def fill (name color : String) (s : Stage) : Except StageError Stage :=
  match changeLast? (fun d => d.handle = name || d.shape = name)
      (fun d => { d with color := some color }) s.drawings with
  | some drawings => .ok { s with drawings := drawings }
  | none => .error (.unknownShape name)

/-- Put a new caption on an element. -/
def write (element text : String) (s : Stage) : Stage :=
  { s with captions := s.captions ++ [⟨element, text⟩] }

/-- Add to the latest caption of an element, after a blank; start one if there is none. -/
def append (element text : String) (s : Stage) : Stage :=
  match changeLast? (·.element = element)
      (fun c => { c with text := c.text ++ " " ++ text }) s.captions with
  | some captions => { s with captions := captions }
  | none => s.write element text

/-- The step of a direction: to the right and down. -/
def step? : String → Option (Int × Int)
  | "up" => some (0, -1)
  | "down" => some (0, 1)
  | "left" => some (-1, 0)
  | "right" => some (1, 0)
  | _ => none

/-- Move the latest drawing one step. -/
def move (direction : String) (s : Stage) : Except StageError Stage :=
  match step? direction with
  | none => .error (.unknownDirection direction)
  | some (dx, dy) =>
    match changeLast? (fun _ => true)
        (fun d => { d with right := d.right + dx, down := d.down + dy }) s.drawings with
    | some drawings => .ok { s with drawings := drawings }
    | none => .error .nothingToMove

end Stage

/-! ## Text and JSON -/

/-- A word and a value, if there is a value. -/
def labelled (word : String) : Option String → String
  | none => ""
  | some value => " " ++ word ++ "=" ++ value

/-- The line of a drawing. -/
def Drawing.text (d : Drawing) : String :=
  d.handle ++ labelled "size" (d.size.map Dimension.text) ++ labelled "color" d.color ++
    labelled "at" d.position ++
    if d.right = 0 && d.down = 0 then ""
    else " offset=" ++ toString d.right ++ "," ++ toString d.down

/-- The line of a caption. -/
def Caption.line (c : Caption) : String := "[" ++ c.element ++ "] " ++ c.text

/-- The stage as text: a line for each drawing, then one for each caption. -/
def Stage.text (s : Stage) : String :=
  String.join ((s.drawings.map Drawing.text ++ s.captions.map Caption.line).map (· ++ "\n"))

/-- A dimension as JSON. -/
def Dimension.toJson (d : Dimension) : Json :=
  .object [("amount", .real d.amount), ("unit", .string d.unit.code)]

/-- A drawing as JSON. -/
def Drawing.toJson (d : Drawing) : Json :=
  .object [("handle", .string d.handle), ("shape", .string d.shape),
    ("size", .ofOption Dimension.toJson d.size), ("color", .ofOption .string d.color),
    ("position", .ofOption .string d.position),
    ("offset", .array [.integer d.right, .integer d.down])]

/-- A caption as JSON. -/
def Caption.toJson (c : Caption) : Json :=
  .object [("element", .string c.element), ("text", .string c.text)]

/-- The stage as JSON. -/
def Stage.toJson (s : Stage) : Json :=
  .object [("drawings", .array (s.drawings.map Drawing.toJson)),
    ("texts", .array (s.captions.map Caption.toJson))]

end CueScript

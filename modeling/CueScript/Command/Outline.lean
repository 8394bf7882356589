import CueScript.Command.Node

set_option autoImplicit false

/-! # Two views of a chain

The outline of a chain is an indented text: every node with what its slots hold, and below that the
node that it encloses. The tree of a chain is the same as a JSON document, in which empty slots
show too. -/

namespace CueScript

variable {α : Type}

/-- What stands for a value that is not known yet. -/
def awaitedMark : String := "<produced>"

/-! ## Outlines -/

/-- A slot as the outline shows it; an empty slot does not show. -/
def Slot.line? (s : Slot) : Option String :=
  match s.content with
  | .empty => none
  | .value v => some (v.display ++ " -- " ++ s.kind.label)
  | .awaited => some (awaitedMark ++ " -- " ++ s.kind.label)

/-- The line of a node. -/
def Node.heading (n : Node α) : String := n.keyword ++ " -- " ++ n.kind.label

/-- The mark of an item that others follow on its level. -/
def tee : String := "├── "

/-- The mark of the last item of its level. -/
def corner : String := "└── "

/-- What stands before the lines below an item that others follow on its level. -/
def bar : String := "│   "

/-- What stands before the lines below the last item of its level. -/
def gap : String := "    "

/-- An item of an outline: its line, and the lines below it, once their indentation is known. -/
structure OutlineItem where
  line : String
  below : String → List String

/-- An item with nothing below it. -/
def OutlineItem.leaf (line : String) : OutlineItem := ⟨line, fun _ => []⟩

/-- The lines of the items on one level, each with those below it. -/
def OutlineItem.lines (indent : String) : List OutlineItem → List String
  | [] => []
  | [last] => (indent ++ corner ++ last.line) :: last.below (indent ++ gap)
  | item :: rest => (indent ++ tee ++ item.line) :: item.below (indent ++ bar) ++ lines indent rest

/-- The items of a node that its slots make. -/
def Node.slotItems (n : Node α) : List OutlineItem :=
  (n.slots.filterMap Slot.line?).map .leaf

namespace Chain

/-- The lines below the heading of a node that encloses a chain: what its slots hold, and then the
    next node with what stands below that. -/
def linesBelow (indent : String) (n : Node α) : Chain α → List String
  | [] => OutlineItem.lines indent n.slotItems
  | child :: inner =>
    let enclosed := ⟨child.heading, fun nested => linesBelow nested child inner⟩
    OutlineItem.lines indent (n.slotItems ++ [enclosed])

/-- The outline of a chain. -/
def outline : Chain α → String
  | [] => ""
  | n :: inner => "\n".intercalate (n.heading :: linesBelow "" n inner)

end Chain

/-! ## Trees -/

/-- What a slot holds, as JSON. -/
def Content.toJson : Content → Json
  | .empty => .null
  | .value v => v.toJson
  | .awaited => .string awaitedMark

/-- A slot as JSON. -/
def Slot.toJson (s : Slot) : Json :=
  .object [("type", .string s.kind.code), ("required", .bool s.required),
    ("value", s.content.toJson)]

/-- The tree of a chain; an empty chain is `null`. -/
def Chain.toJson : Chain α → Json
  | [] => .null
  | n :: inner =>
    .object [("keyword", .string n.keyword), ("type", .string n.kind.code),
      ("args", .array (n.slots.map Slot.toJson)), ("child", Chain.toJson inner)]

end CueScript

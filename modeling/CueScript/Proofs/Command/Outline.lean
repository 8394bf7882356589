import CueScript.Command.Outline
import Mathlib.Data.List.Basic

set_option autoImplicit false

/-! # The outline of a chain is flat

An outline is laid out as a tree: below an item that others follow, a bar would lead past the lines
below it to the next one. In a chain only the enclosed node has lines below it, and it is the last
item of its level, so every level is indented by blanks alone. The outline therefore lists the nodes
one after the other, each with what its slots hold and then the heading of the next node, four
blanks further in than the node before (`linesBelow_eq`). -/

namespace CueScript

variable {α : Type}

/-! ## One level -/

theorem Slot.line?_eq_none_iff {s : Slot} : s.line? = none ↔ s.content = .empty := by
  unfold line?
  split <;> simp [*]

/-- Items with nothing below them: a tee stands before each but the last. -/
theorem OutlineItem.lines_leaves (indent : String) (texts : List String) :
    lines indent (texts.map leaf)
      = texts.mapIdx fun i text =>
        indent ++ (if i + 1 = texts.length then corner else tee) ++ text := by
  induction texts with
  | nil => rfl
  | cons text rest ih =>
    cases rest with
    | nil => rfl
    | cons next rest =>
      rw [List.mapIdx_cons, List.map_cons, List.map_cons, lines, ← List.map_cons, ih]
      · simp [leaf]
      · simp

/-- A last item, with lines below it, behind items that have none: these are under tees. -/
theorem OutlineItem.lines_leaves_append (indent : String) (texts : List String)
    (last : OutlineItem) :
    lines indent (texts.map leaf ++ [last])
      = (texts.mapIdx fun _ text => indent ++ tee ++ text)
        ++ (indent ++ corner ++ last.line) :: last.below (indent ++ gap) := by
  induction texts with
  | nil => rfl
  | cons text rest ih =>
    rw [List.map_cons, List.cons_append, lines, ih]
    · simp [leaf]
    · simp

/-! ## All levels -/

/-- What stands before the lines of a node that many others enclose. -/
def margin (depth : Nat) : String := String.ofList (List.replicate (4 * depth) ' ')

theorem margin_append_gap (depth : Nat) : margin depth ++ gap = margin (depth + 1) := by
  rw [margin, margin, Nat.mul_succ, List.replicate_add, String.ofList_append]
  rfl

/-- The lines of a node, given how many others enclose it and which node it encloses: one for each
    slot that holds something, and the heading of the enclosed node. Before the last of them there
    is a corner if it is a heading or ends the outline; before all others there is a tee. -/
def Node.linesAt (n : Node α) (depth : Nat) (child? : Option (Node α)) : List String :=
  let texts := n.slots.filterMap Slot.line?
  (texts.mapIdx fun i text =>
    margin depth ++ (if child?.isNone ∧ i + 1 = texts.length then corner else tee) ++ text)
  ++ child?.toList.map fun child => margin depth ++ corner ++ child.heading

/-- The lines below a heading are those of the nodes, one after the other. -/
theorem Chain.linesBelow_eq (depth : Nat) (n : Node α) (inner : Chain α) :
    linesBelow (margin depth) n inner
      = ((n :: inner).mapIdx fun k m => m.linesAt (depth + k) (n :: inner)[k + 1]?).flatten := by
  induction inner generalizing depth n with
  | nil =>
    rw [linesBelow, Node.slotItems, OutlineItem.lines_leaves]
    simp [Node.linesAt]
  | cons child inner ih =>
    rw [linesBelow, Node.slotItems, OutlineItem.lines_leaves_append, margin_append_gap]
    dsimp only
    rw [ih, List.mapIdx_cons, List.flatten_cons]
    simp [Node.linesAt, Nat.add_assoc, Nat.add_comm 1]

/-- Behind the blanks in front of a line of a node there is a tee or a corner. -/
theorem Node.mark_of_mem_linesAt {n : Node α} {depth : Nat} {child? : Option (Node α)}
    {line : String} (h : line ∈ n.linesAt depth child?) :
    ∃ mark ∈ [tee, corner], ∃ text, line = margin depth ++ mark ++ text := by
  rw [linesAt, List.mem_append, List.mem_mapIdx, List.mem_map] at h
  obtain ⟨i, hi, rfl⟩ | ⟨child, -, rfl⟩ := h
  · refine ⟨_, ?_, _, rfl⟩
    split <;> simp
  · exact ⟨corner, by simp, child.heading, rfl⟩

theorem not_bar_behind_margin {mark : String} (hmark : mark ∈ [tee, corner]) (depth : Nat)
    (text : String) :
    ¬ bar.toList <+: (margin depth ++ mark ++ text).toList.dropWhile (· = ' ') := by
  have hblanks : ∀ (k : Nat) (cs : List Char),
      (List.replicate k ' ' ++ cs).dropWhile (· = ' ') = cs.dropWhile (· = ' ') := by
    intro k cs
    exact List.dropWhile_append_of_pos (by simp)
  rw [String.toList_append, String.toList_append, margin, String.toList_ofList, List.append_assoc,
    hblanks]
  simp only [List.mem_cons, List.not_mem_nil, or_false] at hmark
  obtain rfl | rfl := hmark
  · simp [tee, bar]
  · simp [corner, bar]

theorem Node.length_linesAt (n : Node α) (depth : Nat) (child? : Option (Node α)) :
    (n.linesAt depth child?).length
      = n.slots.countP (fun s => s.content ≠ .empty) + child?.toList.length := by
  have hshown : ∀ s : Slot, s.line?.isSome = decide (s.content ≠ .empty) := by
    intro s
    rw [Bool.eq_iff_iff, Option.isSome_iff_ne_none, ne_eq, Slot.line?_eq_none_iff,
      decide_eq_true_iff]
  simp only [linesAt, List.length_append, List.length_mapIdx, List.length_map,
    List.length_filterMap_eq_countP, hshown]

/-- A chain shows each slot that holds something, and each node but the first under another. -/
theorem Chain.length_lines (depth : Nat) (n : Node α) (inner : Chain α) :
    ((n :: inner).mapIdx fun k m => m.linesAt (depth + k) (n :: inner)[k + 1]?).flatten.length
      = ((n :: inner).flatMap Node.slots).countP (fun s => s.content ≠ .empty) + inner.length := by
  induction inner generalizing depth n with
  | nil => simp [Node.length_linesAt]
  | cons child inner ih =>
    have hinner := ih (depth + 1) child
    rw [List.mapIdx_cons, List.flatten_cons, List.length_append, Node.length_linesAt,
      List.flatMap_cons, List.countP_append]
    simp only [List.getElem?_cons_succ, Nat.add_assoc, Nat.add_comm 1] at hinner ⊢
    rw [hinner]
    simp
    omega

/-- **The outline is a flat list of lines.** The outline of a chain begins with the heading of its
    outermost node. Then come the lines of the nodes, outermost first, those of a node being
    indented by four blanks for each node around it: one line for each of its slots that holds
    something, in the order of the slots, and then the heading of the node that it encloses. A
    corner stands before each such heading and before the very last line, if that is of a slot; a
    tee stands before all others. No bar ever follows the blanks at the beginning of a line, and
    there are exactly as many lines as there are slots that are not empty and nodes. -/
theorem Chain.outline_lines (n : Node α) (inner : Chain α) :
    let chain : Chain α := n :: inner
    let lines := (chain.mapIdx fun depth m => m.linesAt depth chain[depth + 1]?).flatten
    chain.outline = "\n".intercalate (n.heading :: lines)
      ∧ (∀ line ∈ lines, ¬ bar.toList <+: line.toList.dropWhile (· = ' '))
      ∧ (n.heading :: lines).length
        = (chain.flatMap Node.slots).countP (fun s => s.content ≠ .empty) + chain.length := by
  intro chain lines
  have hlines : linesBelow "" n inner = lines := by
    have h := linesBelow_eq 0 n inner
    simp only [Nat.zero_add] at h
    exact h
  have hlength : lines.length
      = (chain.flatMap Node.slots).countP (fun s => s.content ≠ .empty) + inner.length := by
    have h := length_lines 0 n inner
    simpa only [Nat.zero_add] using h
  refine ⟨?_, fun line hline => ?_, ?_⟩
  · rw [outline, hlines]
  · obtain ⟨_, hnode, hmem⟩ := List.mem_flatten.1 hline
    obtain ⟨depth, hdepth, rfl⟩ := List.mem_mapIdx.1 hnode
    obtain ⟨mark, hmark, text, rfl⟩ := Node.mark_of_mem_linesAt hmem
    exact not_bar_behind_margin hmark depth text
  · rw [List.length_cons, hlength, List.length_cons, Nat.add_assoc]

/-- A function around another one, with a value, an empty slot and a slot that awaits. -/
example :
    let fill : Node Unit :=
      ⟨⟨"fill", [], .function ⟨[.shape, .color], [.element], none, ⟨3, ()⟩⟩⟩,
        [⟨.shape, true, .awaited⟩, ⟨.color, true, .value (.word (.value .color) "red")⟩,
          ⟨.element, false, .empty⟩]⟩
    let create : Node Unit :=
      ⟨⟨"create", [], .function ⟨[.shape], [], some .shape, ⟨1, ()⟩⟩⟩,
        [⟨.shape, true, .value (.word (.value .shape) "circle")⟩]⟩
    Chain.outline [fill, create]
      = "fill -- Function\n├── <produced> -- Shape\n├── red -- Color\n└── create -- Function\n"
        ++ "    └── circle -- Shape" := by decide

end CueScript

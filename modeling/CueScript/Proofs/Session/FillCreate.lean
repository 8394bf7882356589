import CueScript.Proofs.Command.Exchange
import CueScript.Proofs.Session.Reached
import CueScript.Proofs.Stage.Handles

set_option autoImplicit false

/-! # Filling what was just created

A command such as `fill red create circle` draws one shape, in this color, whatever is on the stage
already and whatever the new shape is called (`fill_create`). Everything has a part in this. The
reader gives the color to `fill` and all the rest to `create`; closing the chain makes `fill` await
the shape; the engine runs `create` first and hands its handle over; and the stage, searching
backwards, meets the new drawing before any other that the handle could stand for.

Each of them is followed by a few equations, one for each step that it takes: first the reader
(`readInto_fill_create`, `readInto_extras`), then the engine with the two actions
(`execute_fill_create`). -/

namespace CueScript

/-! ## The two keywords and their nodes -/

namespace Vocabulary

/-- The keyword `create`. -/
def create : Definition StageAction where
  id := "create"
  aliases := ["make", "draw"]
  role := .function
    { required := [.shape], optional := [.dimension, .color, .position], produces := some .shape,
      handler := StageAction.create.handler }

/-- The keyword `fill`. -/
def fill : Definition StageAction where
  id := "fill"
  aliases := ["paint"]
  role := .function
    { required := [.shape, .color], optional := [], produces := none,
      handler := StageAction.fill.handler }

theorem describes_create : functions[0].Describes create where
  words := rfl
  single := by decide
  distinct := by decide
  role := ⟨.function, rfl, rfl⟩

theorem describes_fill : functions[1].Describes fill where
  words := rfl
  single := by decide
  distinct := by decide
  role := ⟨.function, rfl, rfl⟩

/-- What a slot holds for which a value was given, or none was. -/
def given : Option Value → Content
  | none => .empty
  | some v => .value v

/-- The node of `create` with the values that were given to it. -/
def createNode (shape size position : Option Value) : Node StageAction where
  definition := create
  slots := [⟨.shape, true, given shape⟩, ⟨.dimension, false, given size⟩,
    ⟨.color, false, .empty⟩, ⟨.position, false, given position⟩]

/-- The node of `fill` with what its slots hold. -/
def fillNode (shape color : Content) : Node StageAction where
  definition := fill
  slots := [⟨.shape, true, shape⟩, ⟨.color, true, color⟩]

/-- In `create` a value goes into the slot of its kind. -/
theorem take?_createNode (v : Value) (shape size position : Option Value) :
    (v.kind = .value .shape →
        (createNode none size position).take? v = some (createNode (some v) size position))
      ∧ (v.kind = .value .dimension →
        (createNode shape none position).take? v = some (createNode shape (some v) position))
      ∧ (v.kind = .value .position →
        (createNode shape size none).take? v = some (createNode shape size (some v))) := by
  refine ⟨fun hv => ?_, fun hv => ?_, fun hv => ?_⟩ <;>
    simp [createNode, given, Node.take?, hv, Slot.fillFirst?, Slot.isOpenFor, Slot.isEmpty]

theorem take?_fillNode {c : Value} (hc : c.kind = .value .color) (shape : Content) :
    (fillNode shape .empty).take? c = some (fillNode shape (.value c)) := by
  simp [fillNode, Node.take?, hc, Slot.fillFirst?, Slot.isOpenFor, Slot.isEmpty]

end Vocabulary

open Vocabulary (createNode fillNode take?_createNode take?_fillNode)

/-! ## Reading -/

namespace Registry

/-- The token means this value, which is of the kind. -/
def Gives (r : Registry StageAction) (kind : ValueKind) (token : String) (v : Value) : Prop :=
  r.value? token = some v ∧ v.kind = .value kind

variable {r : Registry StageAction} {c v : Value}

/-- The two keywords open their nodes, and color and shape go into them. -/
theorem HoldsBasics.readInto_fill_create (h : r.HoldsBasics) {fill color create shape : String}
    (hfill : fill ∈ ["fill", "paint"]) (hcolor : r.Gives .color color c)
    (hcreate : create ∈ ["create", "make", "draw"]) (hshape : r.Gives .shape shape v)
    (rest : List String) :
    r.readInto [] (fill :: color :: create :: shape :: rest)
      = r.readInto [createNode (some v) none none, fillNode .empty (.value c)] rest := by
  have hfunction : ∀ draft ∈ Vocabulary.functions, draft ∈ Vocabulary.drafts := fun _ hdraft =>
    List.mem_append_left _ (List.mem_append_left _ hdraft)
  have hopenFill : r.meaning fill = .ok (some (.keyword Vocabulary.fill)) :=
    h.meaning (hfunction _ (List.getElem_mem _)) Vocabulary.describes_fill hfill
  have hopenCreate : r.meaning create = .ok (some (.keyword Vocabulary.create)) :=
    h.meaning (hfunction _ (List.getElem_mem _)) Vocabulary.describes_create hcreate
  calc r.readInto [] (fill :: color :: create :: shape :: rest)
      = r.readInto [fillNode .empty .empty] (color :: create :: shape :: rest) :=
        readInto_keyword hopenFill [] _
    _ = r.readInto [fillNode .empty (.value c)] (create :: shape :: rest) :=
        readInto_take hcolor.1 (take?_fillNode hcolor.2 _) [] _
    _ = r.readInto [createNode none none none, fillNode .empty (.value c)] (shape :: rest) :=
        readInto_keyword hopenCreate _ _
    _ = r.readInto [createNode (some v) none none, fillNode .empty (.value c)] rest :=
        readInto_take hshape.1 ((take?_createNode v none none none).1 hshape.2) _ _

/-- A dimension behind the shape goes into the node of `create`. -/
theorem readInto_size {size : Option String}
    (hsize : ∀ token ∈ size, ∃ d, r.Gives .dimension token d) (shape position : Option Value)
    (outer : List (Node StageAction)) (rest : List String) :
    r.readInto (createNode shape none position :: outer) (size.toList ++ rest)
      = r.readInto (createNode shape (size.bind r.value?) position :: outer) rest := by
  cases size with
  | none => rfl
  | some token =>
    obtain ⟨d, hd, hkind⟩ := hsize token rfl
    rw [Option.bind_some, hd]
    exact readInto_take hd ((take?_createNode d shape none position).2.1 hkind) outer rest

/-- So does a position. -/
theorem readInto_position {position : Option String}
    (hposition : ∀ token ∈ position, ∃ p, r.Gives .position token p) (shape size : Option Value)
    (outer : List (Node StageAction)) :
    r.readInto (createNode shape size none :: outer) position.toList
      = ([], .ok (createNode shape size (position.bind r.value?) :: outer)) := by
  cases position with
  | none => rfl
  | some token =>
    obtain ⟨p, hp, hkind⟩ := hposition token rfl
    rw [Option.bind_some, hp]
    exact readInto_take hp ((take?_createNode p shape size none).2.2 hkind) outer []

/-- Which of them comes first does not matter. -/
theorem readInto_extras {size position : Option String} {extras : List String}
    (hsize : ∀ token ∈ size, ∃ d, r.Gives .dimension token d)
    (hposition : ∀ token ∈ position, ∃ p, r.Gives .position token p)
    (hextras : extras.Perm (size.toList ++ position.toList)) (shape : Option Value)
    (outer : List (Node StageAction)) :
    r.readInto (createNode shape none none :: outer) extras
      = ([], .ok (createNode shape (size.bind r.value?) (position.bind r.value?) :: outer)) := by
  refine readInto_perm hextras.symm ?_ ?_ ?_
  · simp only [List.forall_mem_append, Option.mem_toList]
    constructor
    · intro token htoken
      obtain ⟨d, hd, -⟩ := hsize token htoken
      simp [hd]
    · intro token htoken
      obtain ⟨p, hp, -⟩ := hposition token htoken
      simp [hp]
  · rcases size with _ | a
    · cases position <;> simp
    · rcases position with _ | b
      · simp
      · obtain ⟨d, hd, hdkind⟩ := hsize a rfl
        obtain ⟨p, hp, hpkind⟩ := hposition b rfl
        simp [hd, hp, hdkind, hpkind]
  · rw [readInto_size hsize, readInto_position hposition]

/-- When the chain is closed, `fill` awaits the shape that `create` produces, and no required slot
    is empty. -/
theorem compile_fill_create {tokens : List String} {size position : Option Value}
    (h : (r.readInto [] tokens).2
      = .ok [createNode (some v) size position, fillNode .empty (.value c)]) :
    (r.compile tokens).result
      = .ok ⟨[fillNode .awaited (.value c), createNode (some v) size position],
          r.fillers tokens⟩ := by
  rw [compile_eq_ok_iff]
  have hread : r.readInto [] tokens = ((r.readInto [] tokens).1, .ok _) := Prod.ext rfl h
  rw [passed_of_readInto hread] at hread
  exact ⟨_, hread, rfl, rfl⟩

end Registry

/-! ## Running -/

namespace Engine

variable {α η σ ω : Type} {n child : Node α} {role : FunctionRole α} {inner : Chain α}

/-- A function that encloses nothing is called at once. -/
theorem run_of_nil (e : Engine α ω) (hn : n.definition.function? = some role) (w : ω) :
    e.run n w [] = e.call n role "" none w := by
  simp [run, hn]

/-- A function that encloses another is called after it, with what that one produced. -/
theorem run_of_child (e : Engine α ω) {produced : Option Value} {w w' : ω}
    (hn : n.definition.function? = some role) (hchild : child.isEvent = false)
    (hrun : e.run child w inner = (.ok produced, w')) :
    e.run n w (child :: inner) = e.call n role child.keyword produced w' := by
  simp [run, hn, hchild, hrun]

theorem executeChain_of_run (e : Engine α ω) {value : Option Value} {w w' : ω}
    (hn : n.isEvent = false) (hrun : e.run n w inner = (.ok value, w')) :
    e.executeChain (n :: inner) w = (.ok (some (.ran value)), w') := by
  simp [executeChain, execute, hn, hrun, Except.map]

/-- A call that has its arguments does what the action does with them. -/
theorem call_of_perform {perform : Performer α σ} {host : Host α η} {producer : String}
    {produced value : Option Value} {args : Args} {w : World η σ} {scene : σ}
    (hargs : Node.collectArgs n.keyword producer produced n.slots = .ok args)
    (hperform : perform role.handler.action args w.scene = (.ok value, scene)) :
    (Engine.of perform host).call n role producer produced w = (.ok value, { w with scene }) := by
  simp [call, hargs, Engine.of, hperform, Except.mapError]

end Engine

/-- The length that a dimension tells. A word for a dimension tells none. -/
def Value.length? : Value → Option Dimension
  | dimension d => some d
  | _ => none

namespace StageAction

theorem perform_create (kind : Kind) (shape : String) (size position : Option Value) (s : Stage) :
    perform create [some (.word kind shape), size, none, position] s
      = (.ok (some (.word (.value .shape)
            (s.draw shape (size.bind Value.length?) none (position.map Value.display)).1)),
          (s.draw shape (size.bind Value.length?) none (position.map Value.display)).2) := by
  rcases size with _ | (_ | _ | _ | _) <;> cases position <;> rfl

theorem perform_fill (kind : Kind) {shape : String} {c : Value} {s s' : Stage}
    (h : s.fill shape c.display = .ok s') :
    perform fill [some (.word kind shape), some c] s = (.ok none, s') := by
  have hact : act fill [some (.word kind shape), some c] s = done (s.fill shape c.display) := rfl
  rw [perform, hact, h]
  rfl

end StageAction

/-- The shape is drawn, and then its drawing gets the color, which is the same as to draw it in this
    color. -/
theorem execute_fill_create (c : Value) (shape : String) (size position : Option Value)
    (w : World (EventLoop StageAction) Stage) :
    Chain.execute StageAction.perform EventLoop.host
        [fillNode .awaited (.value c),
          createNode (some (.word (.value .shape) shape)) size position] w
      = (.ok (some (.ran none)),
        { w with scene := (w.scene.draw shape (size.bind Value.length?) (some c.display)
            (position.map Value.display)).2 }) := by
  let e := Engine.of StageAction.perform EventLoop.host
  let n := createNode (some (.word (.value .shape) shape)) size position
  have hargs : Node.collectArgs n.keyword "" none n.slots
      = .ok [some (.word (.value .shape) shape), size, none, position] := by
    cases size <;> cases position <;> rfl
  have hcreate := (e.run_of_nil (n := n) rfl w).trans
    (Engine.call_of_perform hargs (StageAction.perform_create _ shape size position w.scene))
  have hfill := StageAction.perform_fill (.value .shape)
    (w.scene.fill_draw shape (size.bind Value.length?) none (position.map Value.display) c.display)
  exact e.executeChain_of_run rfl
    ((e.run_of_child rfl rfl hcreate).trans (Engine.call_of_perform rfl hfill))

/-! ## Sessions -/

namespace Session

/-- **Filling what a command creates colors exactly the new drawing.** Take a session with any
    settings and any catalog that loads, on any storage, and whatever has happened in it. Let the
    tokens of a command be, with fillers anywhere, a word of `fill`, a color, a word of `create`, a
    shape, and behind it at most one dimension and at most one position, in any order. The command
    compiles and runs. The stage then has one drawing more, at the end. It is of the shape; its color
    is the color as it is shown, its position the given one as it is shown, and its size the given
    length. It has no position if none was given, and no size if no length was: a word for a
    dimension, which a catalog may bring in, tells none. All other drawings, the captions and the
    event loop are as they were. -/
theorem fill_create {ω : Type} (storage : Storage (StateM ω)) (settings : Settings) (world : ω)
    (s : Session) (hs : Reached storage settings world s) (fill color create shape : String)
    (size position : Option String) (extras tokens : List String) (c v : Value)
    (hfill : fill ∈ ["fill", "paint"]) (hcolor : s.registry.Gives .color color c)
    (hcreate : create ∈ ["create", "make", "draw"]) (hshape : s.registry.Gives .shape shape v)
    (hsize : ∀ token ∈ size, ∃ d, s.registry.Gives .dimension token d)
    (hposition : ∀ token ∈ position, ∃ p, s.registry.Gives .position token p)
    (hextras : extras.Perm (size.toList ++ position.toList))
    (htokens : s.registry.Padded (fill :: color :: create :: shape :: extras) tokens) :
    let drawing : Drawing :=
      { handle := Stage.handleOf v.display (s.stage.drawings.length + 1)
        shape := v.display
        size := (size.bind s.registry.value?).bind Value.length?
        color := some c.display
        position := (position.bind s.registry.value?).map Value.display
        right := 0
        down := 0 }
    let after : Session := { s with stage.drawings := s.stage.drawings ++ [drawing] }
    (∃ compiled, (s.registry.compile tokens).result = .ok compiled
        ∧ compiled.chain.execute StageAction.perform EventLoop.host s.world
          = (.ok (some (.ran none)), after.world))
      ∧ ∀ command, s.tokens command = tokens →
        s.report command = (⟨command, s.registry.fillers tokens, .ran none⟩, after) := by
  intro drawing after
  obtain ⟨name, rfl⟩ := Value.eq_word_of_kind hshape.2 (by decide)
  have hread := (hs.holdsBasics.readInto_fill_create hfill hcolor hcreate hshape extras).trans
    (Registry.readInto_extras hsize hposition hextras _ _)
  have hcompile := Registry.compile_fill_create
    ((htokens.readInto_eq []).trans (congrArg Prod.snd hread))
  have hrun := execute_fill_create c name (size.bind s.registry.value?)
    (position.bind s.registry.value?) s.world
  refine ⟨⟨_, hcompile, hrun⟩, fun command htext => ?_⟩
  subst htext
  exact report_of_ran hcompile hrun

/-- In a session in which something has been drawn, with fillers, and with the position before the
    size. -/
theorem fill_create_red_round :
    let command := "so paint it red, then make a round above 2cm"
    ∃ s d, Reached Disk.storage {} Disk.empty s ∧ s.stage.drawings.length = 1
      ∧ Dimension.read? "2cm".toList = some d
      ∧ s.report command = (⟨command, ["so", "it", "then", "a"], .ran none⟩,
        { s with stage.drawings := s.stage.drawings
            ++ [⟨"circle#2", "circle", some d, some "red", some "above", 0, 0⟩] }) := by
  intro command
  let red : Value := .word (.value .color) "red"
  let circle : Value := .word (.value .shape) "circle"
  let above : Value := .word (.value .position) "above"
  let earlier : Act := .script "create a block. move it up."
  have hcomputed : (start Disk.storage {} Disk.empty).1.toOption.any (fun s₀ =>
      let s := s₀.act earlier
      (Dimension.read? "2cm".toList).any fun d =>
        s.stage.drawings.length = 1 ∧ s.registry.value? "red" = some red
          ∧ s.registry.value? "round" = some circle ∧ s.registry.value? "above" = some above
          ∧ s.registry.value? "2cm" = some (.dimension d)
          ∧ (s.tokens command).filter (fun token => !s.registry.isFiller token)
            = ["paint", "red", "make", "round", "above", "2cm"]
          ∧ s.registry.fillers (s.tokens command) = ["so", "it", "then", "a"]) = true := by
    decide +kernel
  obtain ⟨s₀, hstart, hany⟩ := any_toOption_iff.1 hcomputed
  obtain ⟨d, hd, hs⟩ := (Option.any_eq_true _ _).1 hany
  obtain ⟨hdrawn, hred, hround, habove, hlength, hothers, hfillers⟩ := of_decide_eq_true hs
  generalize hafter : s₀.act earlier = s at hdrawn hred hround habove hlength hothers hfillers
  have hreached : Reached Disk.storage {} Disk.empty s :=
    hafter ▸ (Reached.start hstart).act earlier
  have htokens := s.registry.padded_filter (s.tokens command)
  rw [hothers] at htokens
  have hsize : ∀ token ∈ some "2cm", ∃ d, s.registry.Gives .dimension token d := by
    rintro _ ⟨⟩
    exact ⟨.dimension d, hlength, rfl⟩
  have hposition : ∀ token ∈ some "above", ∃ p, s.registry.Gives .position token p := by
    rintro _ ⟨⟩
    exact ⟨above, habove, rfl⟩
  obtain ⟨-, hreport⟩ := fill_create Disk.storage {} Disk.empty s hreached "paint" "red" "make"
    "round" (some "2cm") (some "above") ["above", "2cm"] (s.tokens command) red circle (by decide)
    ⟨hred, rfl⟩ (by decide) ⟨hround, rfl⟩ hsize hposition (by decide) htokens
  refine ⟨s, d, hreached, hdrawn, hd, ?_⟩
  rw [hreport command rfl, hfillers, hdrawn]
  simp only [Option.bind_some, hlength, habove]
  rfl

/-- A word for a dimension is given to `create` like a length, but the drawing has no size. -/
theorem fill_create_big_circle :
    let catalog : Catalog := ⟨[{ kind := some "DIMENSION", words := ["big", "large"] }]⟩
    let disk := Disk.empty.set ["c.json"] (.file (some catalog.toJson.compact))
    let command := "fill red create circle big"
    ∃ s, Reached Disk.storage { catalog := some "c.json" } disk s
      ∧ s.tokens command = ["fill", "red", "create", "circle", "big"]
      ∧ s.registry.Gives .color "red" (.word (.value .color) "red")
      ∧ s.registry.Gives .shape "circle" (.word (.value .shape) "circle")
      ∧ s.registry.Gives .dimension "big" (.word (.value .dimension) "big")
      ∧ (s.report command).2.stage
        = ⟨[⟨"circle#1", "circle", none, some "red", none, 0, 0⟩], []⟩ := by
  intro catalog disk command
  let red : Value := .word (.value .color) "red"
  let circle : Value := .word (.value .shape) "circle"
  let big : Value := .word (.value .dimension) "big"
  have hcomputed : (start Disk.storage { catalog := some "c.json" } disk).1.toOption.any (fun s =>
      s.tokens command = ["fill", "red", "create", "circle", "big"]
        ∧ s.registry.value? "red" = some red ∧ s.registry.value? "circle" = some circle
        ∧ s.registry.value? "big" = some big
        ∧ (s.report command).2.stage
          = ⟨[⟨"circle#1", "circle", none, some "red", none, 0, 0⟩], []⟩) = true := by
    decide +kernel
  obtain ⟨s, hstart, hs⟩ := any_toOption_iff.1 hcomputed
  obtain ⟨htokens, hred, hcircle, hbig, hstage⟩ := of_decide_eq_true hs
  exact ⟨s, .start hstart, htokens, ⟨hred, rfl⟩, ⟨hcircle, rfl⟩, ⟨hbig, rfl⟩, hstage⟩

end Session

end CueScript

import CueScript.Engine.Execute

set_option autoImplicit false

/-! # Records of what an engine did

An engine does two things to the world: it asks its host to keep a binding, and it calls a handler.
A *deed* is one of these with the answer that came. A *run* is what some computation did, in order,
what it came to and the world that it left; runs follow each other with `andThen`.

Any engine can be made to keep a record of its deeds (`Engine.recorded`). `Run.logged` is what a
recorded engine answers where the plain one answers the run. -/

namespace CueScript

/-- Something an engine did to the world, with the answer. -/
inductive Deed (α : Type) where
  | subscribe (binding : Binding α) (answer : Except String Nat)
  | call (node : Node α) (handler : Handler α) (args : Args)
      (answer : Except String (Option Value))

/-- What a computation did, what it came to, and the world that it left. -/
structure Run (α ω β : Type) where
  deeds : List (Deed α)
  result : Except ExecutionError β
  world : ω

variable {α ω β γ δ : Type}

namespace Run

/-- A run that does nothing. -/
def pure (b : β) (w : ω) : Run α ω β := ⟨[], .ok b, w⟩

/-- One run after another; the second needs what the first came to. -/
def andThen (run : Run α ω β) (next : β → ω → Run α ω γ) : Run α ω γ :=
  match run.result with
  | .error error => ⟨run.deeds, .error error, run.world⟩
  | .ok b =>
    let more := next b run.world
    ⟨run.deeds ++ more.deeds, more.result, more.world⟩

/-- The run that comes to something else. -/
def map (f : β → γ) (run : Run α ω β) : Run α ω γ := ⟨run.deeds, run.result.map f, run.world⟩

/-- What an engine answers that does not keep a record. -/
def answer (run : Run α ω β) : Answer ω β := (run.result, run.world)

/-- What an engine answers that adds its deeds to a record. -/
def logged (run : Run α ω β) (log : List (Deed α)) : Answer (ω × List (Deed α)) β :=
  (run.result, run.world, log ++ run.deeds)

@[simp] theorem pure_andThen (b : β) (w : ω) (next : β → ω → Run α ω γ) :
    (pure b w).andThen next = next b w := rfl

@[simp] theorem andThen_pure (run : Run α ω β) : run.andThen pure = run := by
  obtain ⟨deeds, result, w⟩ := run
  cases result <;> simp [andThen, pure]

theorem andThen_assoc (run : Run α ω β) (next : β → ω → Run α ω γ) (last : γ → ω → Run α ω δ) :
    (run.andThen next).andThen last = run.andThen fun b w => (next b w).andThen last := by
  obtain ⟨deeds, result, w⟩ := run
  cases result with
  | error error => rfl
  | ok b =>
    simp only [andThen]
    cases (next b w).result <;> simp

theorem map_eq_andThen (f : β → γ) (run : Run α ω β) :
    run.map f = run.andThen fun b w => pure (f b) w := by
  obtain ⟨deeds, result, w⟩ := run
  cases result <;> simp [map, andThen, pure, Except.map]

@[simp] theorem answer_andThen (run : Run α ω β) (next : β → ω → Run α ω γ) :
    (run.andThen next).answer
      = match run.answer with
        | (.error error, w) => (.error error, w)
        | (.ok b, w) => (next b w).answer := by
  obtain ⟨deeds, result, w⟩ := run
  cases result <;> rfl

theorem answer_map (f : β → γ) (run : Run α ω β) :
    (run.map f).answer = (run.answer.1.map f, run.answer.2) := rfl

/-- A recorded engine may do one thing after another just as the plain one. -/
theorem andThen_logged {run : Run α ω β} {run' : Run α (ω × List (Deed α)) β}
    {next : β → ω → Run α ω γ} {next' : β → ω × List (Deed α) → Run α (ω × List (Deed α)) γ}
    {log : List (Deed α)} (hrun : run'.answer = run.logged log)
    (hnext : ∀ b w log, (next' b (w, log)).answer = (next b w).logged log) :
    (run'.andThen next').answer = (run.andThen next).logged log := by
  obtain ⟨deeds, result, w⟩ := run
  rw [answer_andThen, hrun]
  cases result with
  | error error => rfl
  | ok b => simp [logged, hnext, andThen]

end Run

/-- The engine that adds what it does to a record. -/
def Engine.recorded (e : Engine α ω) : Engine α (ω × List (Deed α)) where
  invoke n handler args w :=
    let (answer, w') := e.invoke n handler args w.1
    (answer, w', w.2 ++ [.call n handler args answer])
  host := {
    subscribe := fun b w =>
      let (answer, w') := e.host.subscribe b w.1
      (answer, w', w.2 ++ [.subscribe b answer]) }

/-! ## Keeping a record changes nothing -/

/-- The same answer and the same world, and a record that may have grown. -/
def Answer.Extends (plain : Answer ω β) (log : List (Deed α))
    (recorded : Answer (ω × List (Deed α)) β) : Prop :=
  ∃ deeds, recorded = (plain.1, plain.2, log ++ deeds)

theorem Answer.Extends.refl (plain : Answer ω β) (log : List (Deed α)) :
    plain.Extends log (plain.1, plain.2, log) := ⟨[], by simp⟩

theorem Answer.Extends.trans {plain : Answer ω β} {log deeds : List (Deed α)}
    {recorded : Answer (ω × List (Deed α)) β} (h : plain.Extends (log ++ deeds) recorded) :
    plain.Extends log recorded := by
  obtain ⟨more, rfl⟩ := h
  exact ⟨deeds ++ more, by rw [List.append_assoc]⟩

namespace Engine

theorem bind_recorded (e : Engine α ω) (n : Node α) (inner : Chain α) (w : ω)
    (log : List (Deed α)) :
    (e.host.bind n inner w).Extends log (e.recorded.host.bind n inner (w, log)) := by
  unfold Host.bind
  split
  · split
    · exact .refl _ log
    · exact ⟨_, rfl⟩
  · exact .refl _ log

theorem call_recorded (e : Engine α ω) (n : Node α) (role : FunctionRole α) (producer : String)
    (produced : Option Value) (w : ω) (log : List (Deed α)) :
    (e.call n role producer produced w).Extends log
      (e.recorded.call n role producer produced (w, log)) := by
  unfold call
  split
  · exact .refl _ log
  · exact ⟨_, rfl⟩

theorem run_recorded (e : Engine α ω) (n : Node α) (inner : Chain α) (w : ω)
    (log : List (Deed α)) :
    (e.run n w inner).Extends log (e.recorded.run n (w, log) inner) := by
  induction inner generalizing n w log with
  | nil =>
    unfold run
    split
    · exact .refl _ log
    · exact e.call_recorded _ _ _ _ _ _
  | cons child rest ih =>
    unfold run
    split
    · exact .refl _ log
    · split
      · obtain ⟨deeds, hbind⟩ := e.bind_recorded child rest w log
        rw [hbind]
        obtain ⟨result, w'⟩ := e.host.bind child rest w
        cases result with
        | error error => exact ⟨deeds, rfl⟩
        | ok id => exact (e.call_recorded _ _ _ _ _ _).trans
      · obtain ⟨deeds, hrun⟩ := ih child w log
        rw [hrun]
        obtain ⟨result, w'⟩ := e.run child w rest
        cases result with
        | error error => exact ⟨deeds, rfl⟩
        | ok value => exact (e.call_recorded _ _ _ _ _ _).trans

/-- An engine that keeps a record executes as the plain one, whatever the chain. -/
theorem execute_recorded (e : Engine α ω) (n : Node α) (inner : Chain α) (w : ω)
    (log : List (Deed α)) :
    (e.execute n inner w).Extends log (e.recorded.execute n inner (w, log)) := by
  unfold execute
  split
  · obtain ⟨deeds, hbind⟩ := e.bind_recorded n inner w log
    rw [hbind]
    exact ⟨deeds, rfl⟩
  · obtain ⟨deeds, hrun⟩ := e.run_recorded n inner w log
    rw [hrun]
    exact ⟨deeds, rfl⟩

theorem executeChain_recorded (e : Engine α ω) (chain : Chain α) (w : ω) (log : List (Deed α)) :
    (e.executeChain chain w).Extends log (e.recorded.executeChain chain (w, log)) := by
  unfold executeChain
  split
  · exact .refl _ log
  · next n inner =>
    obtain ⟨deeds, hexecute⟩ := e.execute_recorded n inner w log
    rw [hexecute]
    exact ⟨deeds, rfl⟩

theorem fire_recorded (e : Engine α ω) (b : Binding α) (w : ω) (log : List (Deed α)) :
    (e.fire b w).Extends log (e.recorded.fire b (w, log)) :=
  e.executeChain_recorded b.body w log

/-- An engine that keeps a record fires bindings as the plain one. -/
theorem fireEach_recorded (e : Engine α ω) (bs : List (Binding α)) (w : ω)
    (log : List (Deed α)) :
    (e.fireEach w bs).Extends log (e.recorded.fireEach (w, log) bs) := by
  induction bs generalizing w log with
  | nil => exact .refl _ log
  | cons b rest ih =>
    unfold fireEach
    obtain ⟨deeds, hfire⟩ := e.fire_recorded b w log
    rw [hfire]
    obtain ⟨result, w'⟩ := e.fire b w
    cases result with
    | error error => exact ⟨deeds, rfl⟩
    | ok outcome => exact (ih w' _).trans

end Engine

end CueScript

import CueScript.Proofs.Command.Room
import CueScript.Proofs.Engine.TypedCalls

set_option autoImplicit false

/-! # Only the outside world fails

Some errors guard against states that cannot come about: an index entry without its definition, a
function that cannot be run, an event that cannot be bound or has nothing to bind to. None of them
ever comes up. A command that compiles, and every binding that it leaves behind, fails only for a
reason from outside: an action that fails, a product that does not come or is of the wrong kind, a
host that refuses (`failures_external`).

The registry rules out the first of them, and well-formed chains the others, whatever engine runs
them. -/

namespace CueScript

variable {α σ ω : Type}

/-- Failures for which an action or a host is the cause. -/
inductive ExecutionError.IsExternal : ExecutionError → Prop where
  | handler (keyword reason : String) : IsExternal (.handler keyword reason)
  | missingValue (keyword : String) (expected : ValueKind) (producer : String) :
      IsExternal (.missingValue keyword expected producer)
  | host (keyword reason : String) : IsExternal (.host keyword reason)

/-! ## Commands and bindings -/

namespace Run

theorem Calls.isExternal {producer : String} {produced : Option Value} {ns : List (Node α)}
    {deeds : List (Deed α)} {result : Except ExecutionError (Option Value)}
    (h : Calls producer produced ns deeds result) {error : ExecutionError}
    (herror : result = .error error) : error.IsExternal := by
  induction h with
  | done => cases herror
  | unmet =>
    cases herror
    exact .missingValue _ _ _
  | failed =>
    cases herror
    exact .handler _ _
  | next _ _ _ _ _ _ _ _ _ _ _ ih => exact ih herror

theorem InsideOut.isExternal {chain : Chain α} {deeds : List (Deed α)}
    {result : Except ExecutionError Outcome} (h : InsideOut chain deeds result)
    {error : ExecutionError} (herror : result = .error error) : error.IsExternal := by
  cases h with
  | plain _ _ _ _ calls => exact calls.isExternal (map_eq_error_iff.1 herror)
  | refused =>
    cases herror
    exact .host _ _
  | bound => cases herror
  | around _ _ _ _ _ _ _ _ _ _ calls => exact calls.isExternal (map_eq_error_iff.1 herror)

end Run

namespace Engine

/-- A well-formed chain fails only for a reason from outside. -/
theorem isExternal_of_execute (e : Engine α ω) {ds : List (Definition α)} {n : Node α}
    {inner : Chain α} (hwf : Chain.WellFormed ds (n :: inner)) {w : ω} {error : ExecutionError}
    (herror : (e.execute n inner w).1 = .error error) : error.IsExternal := by
  rw [e.execute_eq hwf] at herror
  exact (e.insideOut_deeds hwf w).isExternal herror

theorem isExternal_of_fire (e : Engine α ω) {ds : List (Definition α)} {b : Binding α}
    (hb : b.body.WellFormed ds) {w : ω} {error : ExecutionError}
    (herror : (e.fire b w).1 = .error error) : error.IsExternal := by
  obtain ⟨signal, target, body⟩ := b
  cases body with
  | nil => cases herror
  | cons n inner => exact e.isExternal_of_execute hb (map_eq_error_iff.1 herror)

theorem isExternal_of_fireEach (e : Engine α ω) {ds : List (Definition α)} {bs : List (Binding α)}
    (hbs : ∀ b ∈ bs, b.body.WellFormed ds) {w : ω} {error : ExecutionError}
    (herror : (e.fireEach w bs).1 = .error error) : error.IsExternal := by
  induction bs generalizing w with
  | nil => cases herror
  | cons b rest ih =>
    obtain ⟨hb, hrest⟩ := List.forall_mem_cons.1 hbs
    rw [fireEach] at herror
    split at herror
    · next heq =>
      cases herror
      exact e.isExternal_of_fire hb (congrArg Prod.fst heq)
    · exact ih hrest herror

end Engine

/-! ## Histories -/

/-- Compiling never meets an entry of the index without its definition. -/
theorem Registry.Holds.compile_ne_dangling {r : Registry α} {ds : List (Definition α)}
    (h : r.Holds ds) (tokens : List String) (entry : DanglingEntry) :
    (r.compile tokens).result ≠ .error (.dangling entry) := by
  intro hdangling
  rcases h.compile_cases tokens with ⟨-, ⟨c, hc⟩ | ⟨_, _, hc⟩⟩ | ⟨_, _, _, -, -, -, -, hc⟩
  all_goals
    rw [hc] at hdangling
    cases hdangling

/-- The tokens that are passed over are those that are neither keywords nor values. -/
theorem Registry.Holds.fillers_eq {r : Registry α} {ds : List (Definition α)} (h : r.Holds ds)
    (tokens : List String) :
    r.fillers tokens = tokens.filter fun t => (r.keyword? t).isNone && (r.value? t).isNone := by
  refine List.filter_congr fun token _ => ?_
  obtain ⟨meaning, hm⟩ := h.exists_meaning token
  simp only [isFiller, keyword?, value?, hm]
  rcases meaning with - | (d | v) <;> rfl

/-- **Internal errors do not come up.** Over whatever was registered, compiling never meets an entry
    of the index without its definition, and every token that is passed over means nothing. After
    any history of steps, a command that compiles and every binding that was ever made fail, on
    whatever engine, only for reasons from outside; and so does firing the event loop. -/
theorem failures_external (calls : List (Registration α)) :
    let r := (Registry.history calls).2
    (∀ tokens entry, (r.compile tokens).result ≠ .error (.dangling entry))
      ∧ (∀ tokens, r.fillers tokens
        = tokens.filter fun t => (r.keyword? t).isNone && (r.value? t).isNone)
      ∧ ∀ (perform : Performer α σ) (scene : σ) (steps : List (Step α σ)),
        let c := Step.takeAll r perform (⟨.empty, scene⟩, []) steps
        (∀ tokens n inner, r.root? tokens = some (n, inner) →
          ∀ (ω : Type) (e : Engine α ω) (w : ω) (error : ExecutionError),
            (e.execute n inner w).1 = .error error → error.IsExternal)
        ∧ (∀ b ∈ c.2.filterMap Deed.binding?,
          ∀ (ω : Type) (e : Engine α ω) (w : ω) (error : ExecutionError),
            (e.fire b w).1 = .error error → error.IsExternal)
        ∧ ∀ (target : Target) (signal : String) (error : ExecutionError),
          (EventLoop.fire perform target signal c.1).1 = .error error → error.IsExternal := by
  intro r
  have hr : r.Holds (Registry.history calls).1 := Registry.holds_history calls
  refine ⟨?_, hr.fillers_eq, fun perform scene steps => ?_⟩
  · exact fun tokens entry => hr.compile_ne_dangling tokens entry
  · have hlawful := (lawful_start _ scene).takeAll hr perform steps
    refine ⟨?_, ?_, ?_⟩
    · intro tokens n inner hroot ω e w error
      exact e.isExternal_of_execute (hr.wellFormed_of_root? hroot)
    · intro b hb ω e w error
      exact e.isExternal_of_fire (hlawful.deeds.of_binding?_mem hb)
    · intro target signal error herror
      exact Engine.isExternal_of_fireEach _
        (fun b hb => hlawful.loop b (List.mem_of_mem_filter hb)) (map_eq_error_iff.1 herror)

end CueScript

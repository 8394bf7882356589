import CueScript.Proofs.Command.Fillers
import CueScript.Session

set_option autoImplicit false

/-! # Reports

What running commands leaves as it was in a session, and what each report says whatever its command
did: it lists the fillers of the command, also when the command failed before all of its tokens were
read (`fillers_ignored`). -/

namespace CueScript

namespace Session

/-! ## What commands keep -/

/-- The same vocabulary and settings: what says how commands are read. -/
structure SameReading (s s' : Session) : Prop where
  registry : s'.registry = s.registry
  settings : s'.settings = s.settings

theorem sameReading_runCommand (s : Session) (command : String) :
    s.SameReading (s.runCommand command).2 := by
  unfold runCommand
  split
  · exact ⟨rfl, rfl⟩
  · exact ⟨rfl, rfl⟩

theorem sameReading_report (s : Session) (command : String) :
    s.SameReading (s.report command).2 := by
  have h := sameReading_runCommand s command
  unfold report
  split <;> simpa [*] using h

theorem sameReading_runAll (s : Session) (commands : List String) :
    s.SameReading (s.runAll commands).2 := by
  induction commands generalizing s with
  | nil => exact ⟨rfl, rfl⟩
  | cons command rest ih =>
    have hfirst := sameReading_report s command
    have hrest := ih (s.report command).2
    exact ⟨hrest.registry.trans hfirst.registry, hrest.settings.trans hfirst.settings⟩

/-- A session compiles its commands as its registry does; its policy only decides on warnings. -/
theorem compile_eq_ok_iff {s : Session} {command : String} {c : Command StageAction} :
    s.compile command = .ok c ↔ (s.registry.compile (s.tokens command)).result = .ok c := by
  rw [compile, Registry.compileUnder_eq]
  exact mapError_eq_ok_iff

theorem report_command (s : Session) (command : String) :
    (s.report command).1.command = command := by
  unfold report
  split <;> rfl

/-- What a command reports that compiles and runs. -/
theorem report_of_ran {s : Session} {command : String} {compiled : Command StageAction}
    {value : Option Value} {w : World (EventLoop StageAction) Stage}
    (hcompile : (s.registry.compile (s.tokens command)).result = .ok compiled)
    (hrun : compiled.chain.execute StageAction.perform EventLoop.host s.world
      = (.ok (some (.ran value)), w)) :
    s.report command = (⟨command, compiled.skipped, .ran value⟩, s.inWorld w) := by
  have hc : s.compile command = .ok compiled := compile_eq_ok_iff.2 hcompile
  simp only [report, runCommand, hc, hrun]
  rfl

/-! ## Skipped tokens -/

/-- A command that runs was compiled from its tokens. -/
theorem compile_of_runCommand {s s' : Session} {command : String} {c : Command StageAction}
    {outcome : Option Outcome} (h : s.runCommand command = (.ok (c, outcome), s')) :
    (s.registry.compile (s.tokens command)).result = .ok c := by
  unfold runCommand at h
  split at h
  · cases h
  · next compiled hcompile =>
    obtain ⟨hresult, -⟩ := Prod.mk.inj h
    obtain ⟨outcome', -, heq⟩ := map_eq_ok_iff.1 hresult
    obtain ⟨rfl, -⟩ := Prod.mk.inj heq
    exact compile_eq_ok_iff.1 hcompile

/-- A report lists the fillers of its command, whatever the command did. -/
theorem report_skipped (s : Session) (command : String) :
    (s.report command).1.skipped = s.registry.fillers (s.tokens command) := by
  unfold report
  split
  · next hrun => exact Registry.skipped_eq_fillers (compile_of_runCommand hrun)
  · next hrun => exact Registry.skipped_eq_fillers (compile_of_runCommand hrun)
  · next hrun => exact Registry.skipped_eq_fillers (compile_of_runCommand hrun)
  · rfl

/-- Every command is read as at the beginning, so every report lists its fillers. -/
theorem runAll_skipped (s : Session) (commands : List String) :
    ∀ report ∈ (s.runAll commands).1,
      report.skipped = s.registry.fillers (s.tokens report.command) := by
  induction commands generalizing s with
  | nil => simp [runAll]
  | cons command rest ih =>
    have hsame := sameReading_report s command
    simp only [runAll, List.forall_mem_cons]
    refine ⟨by rw [report_skipped, report_command], fun report hreport => ?_⟩
    rw [ih _ report hreport, hsame.registry, tokens, hsame.settings, tokens]

end Session

/-- **Fillers change nothing, and every one is accounted for.** A filler is a token that is neither
    a registered word nor a literal. Whatever was registered and refused before, a command without
    its fillers, or with more of them anywhere, has the same chain or the same error; under either
    policy a command that compiles lists its fillers in order. A warning is given, if the policy is
    to warn, of every filler of a command that compiles or lacks a required value, and of those
    before the refused token where a value has no room. And each report of a session lists the
    fillers of its command, whatever the command did. -/
theorem fillers_ignored {α : Type} :
    (∀ (calls : List (Registration α)) (policy : UnknownWords) (tokens : List String),
      let r := (Registry.history calls).2
      let fillers := tokens.filter fun token =>
        (r.resolve? token).isNone && (r.literal? token).isNone
      let others := tokens.filter fun token =>
        !((r.resolve? token).isNone && (r.literal? token).isNone)
      let compiled := fun tokens => (r.compileUnder policy tokens).2
      let warned := (r.compileUnder policy tokens).1
      (compiled others).map Command.chain = (compiled tokens).map Command.chain
        ∧ (∀ padded, r.Padded tokens padded →
          (compiled padded).map Command.chain = (compiled tokens).map Command.chain)
        ∧ r.fillers tokens = fillers
        ∧ (∀ c, compiled tokens = .ok c → c.skipped = r.fillers tokens)
        ∧ compiled tokens = (r.compile tokens).result
        ∧ warned = policy.reported (r.compile tokens).passedOver
        ∧ ((∃ c, compiled tokens = .ok c)
            ∨ (∃ keyword missing, compiled tokens = .error (.incomplete keyword missing)) →
          warned = policy.reported fillers)
        ∧ (∀ word kind, compiled tokens = .error (.unexpected word kind) →
          ∃ before token after, tokens = before ++ token :: after
            ∧ (∀ word kind, compiled before ≠ .error (.unexpected word kind))
            ∧ compiled (before ++ [token]) = .error (.unexpected word kind)
            ∧ warned = policy.reported (r.fillers before)))
      ∧ ∀ s : Session,
        (∀ command, s.compile command
          = (s.registry.compileUnder s.settings.unknownWords (s.tokens command)).2.mapError .compile)
        ∧ ∀ script, ∀ report ∈ (s.runScript script).1,
          report.skipped = s.registry.fillers (s.tokens report.command) := by
  refine ⟨fun calls policy tokens => ?_,
    fun s => ⟨fun command => rfl, fun script => s.runAll_skipped _⟩⟩
  intro r fillers others compiled warned
  have hr : r.Holds (Registry.history calls).1 := Registry.holds_history calls
  have hfiller : r.isFiller = fun token => (r.resolve? token).isNone && (r.literal? token).isNone :=
    funext hr.isFiller_eq
  have hcompiled : ∀ tokens, compiled tokens = (r.compile tokens).result := fun tokens =>
    congrArg Prod.snd (r.compileUnder_eq policy tokens)
  have hwarned : warned = policy.reported (r.compile tokens).passedOver :=
    congrArg Prod.fst (r.compileUnder_eq policy tokens)
  have hfillers : r.fillers tokens = fillers := by rw [Registry.fillers, hfiller]
  have hothers : r.Padded others tokens := by
    have h := r.padded_filter tokens
    rwa [hfiller] at h
  simp only [hcompiled]
  refine ⟨hothers.compile_eq.symm, fun padded h => h.compile_eq, hfillers,
    fun c => Registry.skipped_eq_fillers, trivial, hwarned, fun h => ?_, fun word kind h => ?_⟩
  · rw [hwarned, Registry.passedOver_eq_fillers h, hfillers]
  · obtain ⟨before, token, after, htokens, hbefore, hstop, hpassed⟩ :=
      Registry.passedOver_of_unexpected h
    exact ⟨before, token, after, htokens, hbefore, hstop, by rw [hwarned, hpassed]⟩

end CueScript

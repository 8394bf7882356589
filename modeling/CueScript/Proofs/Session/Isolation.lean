import CueScript.Proofs.Session.Reports

set_option autoImplicit false

/-! # Commands that do nothing

A command without keywords, and one that does not compile, is idle: it leaves stage and event loop as
they were, and not even a number of the event loop is lost to it. Which commands are idle does not
hang on stage and event loop either, only on the vocabulary and the settings, which no command
changes. So idle commands may be left out of a script, and nothing else is different
(`idle_commands_isolated`). -/

namespace CueScript

/-- Does the report tell of a command without keywords, or of one that did not compile? -/
def Report.isIdle (r : Report) : Bool :=
  match r.effect with
  | .empty => true
  | .failed (.compile _) => true
  | _ => false

namespace Session

/-- Does the command compile to one with keywords? -/
def acts (s : Session) (command : String) : Bool :=
  match s.compile command with
  | .ok compiled => !compiled.isEmpty
  | .error _ => false

/-! ## One command -/

theorem SameReading.compile_eq {s s' : Session} (h : s.SameReading s') (command : String) :
    s'.compile command = s.compile command := by
  simp only [compile, tokens, h.registry, h.settings]

theorem SameReading.acts_eq {s s' : Session} (h : s.SameReading s') (command : String) :
    s'.acts command = s.acts command := by
  simp only [acts, h.compile_eq]

theorem eq_compile_of_compile_error {s : Session} {command : String} {e : SessionError}
    (h : s.compile command = .error e) : ∃ e', e = .compile e' := by
  obtain ⟨e', -, rfl⟩ := mapError_eq_error_iff.1 h
  exact ⟨e', rfl⟩

/-- A command that does not act leaves the session as it was, and its report says so. -/
theorem report_of_not_acts {s : Session} {command : String} (h : s.acts command = false) :
    (s.report command).1.isIdle = true ∧ (s.report command).2 = s := by
  unfold acts at h
  cases hc : s.compile command with
  | error e =>
    obtain ⟨e', rfl⟩ := eq_compile_of_compile_error hc
    simp only [report, runCommand, hc]
    exact ⟨rfl, trivial⟩
  | ok compiled =>
    obtain ⟨chain, skipped⟩ := compiled
    have hempty : chain = [] := by simpa [hc, Command.isEmpty] using h
    subst hempty
    simp only [report, runCommand, hc]
    exact ⟨rfl, rfl⟩

/-- A command that acts was run or bound, or failed on the way; its report is not idle. -/
theorem report_of_acts {s : Session} {command : String} (h : s.acts command = true) :
    (s.report command).1.isIdle = false := by
  unfold acts at h
  cases hc : s.compile command with
  | error e =>
    rw [hc] at h
    cases h
  | ok compiled =>
    obtain ⟨chain, skipped⟩ := compiled
    cases chain with
    | nil =>
      rw [hc] at h
      cases h
    | cons n inner =>
      simp only [report, runCommand, hc, Chain.execute, Engine.executeChain]
      cases ((Engine.of StageAction.perform EventLoop.host).execute n inner s.world).1 with
      | error e => rfl
      | ok outcome => cases outcome <;> rfl

theorem isIdle_report (s : Session) (command : String) :
    (s.report command).1.isIdle = !s.acts command := by
  cases h : s.acts command with
  | true => exact report_of_acts h
  | false => exact (report_of_not_acts h).1

/-! ## Many commands -/

theorem runAll_cons (s : Session) (command : String) (rest : List String) :
    s.runAll (command :: rest)
      = ((s.report command).1 :: ((s.report command).2.runAll rest).1,
        ((s.report command).2.runAll rest).2) := rfl

/-- There is a report for each command, in order. -/
theorem runAll_command (s : Session) (commands : List String) :
    (s.runAll commands).1.map Report.command = commands := by
  induction commands generalizing s with
  | nil => rfl
  | cons command rest ih => rw [runAll_cons, List.map_cons, report_command, ih]

/-- Every report tells whether its command acts as the session was at the beginning. -/
theorem runAll_isIdle (s : Session) (commands : List String) :
    ∀ report ∈ (s.runAll commands).1, report.isIdle = !s.acts report.command := by
  induction commands generalizing s with
  | nil => simp [runAll]
  | cons command rest ih =>
    rw [runAll_cons, List.forall_mem_cons]
    refine ⟨by rw [isIdle_report, report_command], fun report hreport => ?_⟩
    rw [ih _ report hreport, (sameReading_report s command).acts_eq]

/-- Commands that do not act may be left out, any of them: nothing is different but that their
    reports are missing. -/
theorem runAll_filter (s : Session) (keep : String → Bool) (commands : List String)
    (hkeep : ∀ command ∈ commands, s.acts command = true → keep command = true) :
    s.runAll (commands.filter keep)
      = ((s.runAll commands).1.filter fun report => keep report.command,
        (s.runAll commands).2) := by
  induction commands generalizing s with
  | nil => rfl
  | cons command rest ih =>
    obtain ⟨hcommand, hrest⟩ := List.forall_mem_cons.1 hkeep
    have hsame := sameReading_report s command
    have hafter := ih (s.report command).2 fun c hc hacts =>
      hrest c hc (by rwa [hsame.acts_eq] at hacts)
    cases hk : keep command with
    | true =>
      rw [List.filter_cons_of_pos hk, runAll_cons, runAll_cons, hafter,
        List.filter_cons_of_pos (by rw [report_command, hk])]
    | false =>
      -- The command is left out; the others begin where it leaves the session, which is here.
      have hidle : s.acts command = false := by
        rw [← Bool.not_eq_true]
        exact fun hacts => by simp [hcommand hacts] at hk
      rw [(report_of_not_acts hidle).2] at hafter
      rw [List.filter_cons_of_neg (by simp [hk]), runAll_cons, hafter,
        List.filter_cons_of_neg (by simp [report_command, hk]), (report_of_not_acts hidle).2]

/-- **Failing and empty commands are isolated.** Take any session, whatever is on its stage and in
    its event loop, and any commands. There is one report for each command, in order, with its text.
    The commands whose reports are not idle are those that act at the beginning; run alone, they have
    the same reports, and leave the same session behind: the same stage, and the same bindings under
    the same numbers. A script is run as its commands are, with a report for each. -/
theorem idle_commands_isolated (s : Session) (commands : List String) :
    let reports := (s.runAll commands).1
    let others := reports.filter fun report => !report.isIdle
    reports.map Report.command = commands
      ∧ others.map Report.command = commands.filter s.acts
      ∧ (s.runAll (others.map Report.command)).1 = others
      ∧ (s.runAll (others.map Report.command)).2 = (s.runAll commands).2
      ∧ (∀ script, s.runScript script = s.runAll (Script.commands s.settings.separator script)
        ∧ (s.runScript script).1.map Report.command
          = Script.commands s.settings.separator script) := by
  intro reports others
  have hcommand : reports.map Report.command = commands := s.runAll_command commands
  have hothers : others = reports.filter fun report => s.acts report.command :=
    List.filter_congr fun report hreport => by
      rw [s.runAll_isIdle commands report hreport, Bool.not_not]
  have hacting : others.map Report.command = commands.filter s.acts := by
    rw [hothers, ← hcommand, List.filter_map]
    rfl
  have hrun := s.runAll_filter s.acts commands fun _ _ hacts => hacts
  rw [← hacting, ← hothers] at hrun
  exact ⟨hcommand, hacting, by rw [hrun], by rw [hrun],
    fun script => ⟨rfl, s.runAll_command _⟩⟩

end Session

end CueScript

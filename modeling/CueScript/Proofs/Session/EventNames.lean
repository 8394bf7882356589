import CueScript.CommandLine.Program
import CueScript.Proofs.EventLoop.Legible
import CueScript.Proofs.Registry.Growth
import CueScript.Proofs.Session.Reports
import CueScript.Storage.Disk

set_option autoImplicit false

/-! # The names of bound events

On the command line an event is called by its target and its signal, with a colon between them, and
the last colon of the text counts. A target may have colons in it, so the name of a bound event can
be read back exactly if its signal has none (`fireArgument_iff`).

For that the target has to be legible, and so it is in every session: the basic vocabulary and the
catalog have legible targets, and what commands and signals add to the event loop is legible again
(`Session.Legible.act`). -/

namespace CueScript

/-! ## Reading a name -/

/-- The name of a legible binding is read back exactly if the last colon is the one between target
    and signal. -/
theorem CommandLine.fireArgument_eq_ok_iff {α : Type} {b : Binding α} (h : b.Legible) :
    fireArgument (b.target.text ++ ":" ++ b.signal) = .ok (b.target, b.signal)
      ↔ ':' ∉ b.signal.toList := by
  have hlist : (b.target.text ++ ":" ++ b.signal).toList
      = b.target.text.toList ++ ':' :: b.signal.toList := by
    simp [String.toList_append]
  constructor
  · intro hread
    unfold fireArgument at hread
    split at hread
    · next target signal hcut =>
      split at hread
      · cases hread
      · split at hread
        · obtain ⟨-, hsignal⟩ := Prod.mk.inj (Except.ok.inj hread)
          rw [← hsignal, String.toList_ofList]
          exact (Text.cutAtLast_eq_some_iff.1 hcut).2
        · cases hread
    · cases hread
  · intro hcolon
    have hcut : Text.cutAtLast ':' (b.target.text ++ ":" ++ b.signal).toList
        = some (b.target.text.toList, b.signal.toList) :=
      Text.cutAtLast_eq_some_iff.2 ⟨hlist, hcolon⟩
    have hsignal : b.signal.toList.isEmpty = false := by simpa using h.signal.1
    have htarget : Target.read b.target.text = .ok b.target := h.target
    simp only [fireArgument, hcut, hsignal, String.ofList_toList, htarget, Bool.false_eq_true,
      if_false]

/-! ## Sessions -/

namespace Session

open CommandLine (fireArgument)

/-- The registry holds legible definitions. The bindings of the event loop are legible, and their
    bodies are well-formed. -/
structure Legible (ds : List (Definition StageAction)) (s : Session) : Prop where
  registry : s.registry.Holds ds
  definitions : ∀ d ∈ ds, d.Legible
  lawful : s.loop.Lawful ds
  bindings : ∀ b ∈ s.loop.bindings.values, b.Legible

/-- What happens in a session: a script is run, or a signal is fired. -/
inductive Act where
  | script (text : String)
  | fire (target : Target) (signal : String)

/-- The session after one of these. -/
def act (s : Session) : Act → Session
  | .script text => (s.runScript text).2
  | .fire target signal => (s.fire target signal).2

/-- The session after some of these, one after the other. -/
def actAll (s : Session) (acts : List Act) : Session := acts.foldl act s

/-! ## The beginning -/

/-- The only target in the basic vocabulary is the document. -/
theorem legible_of_mem_drafts : ∀ draft ∈ Vocabulary.drafts, ∀ t ∈ draft.target, t.Legible := by
  have htarget : ∀ draft ∈ Vocabulary.drafts,
      draft.target = none ∨ draft.target = some (.host "document") := by decide
  intro draft hdraft t ht
  rcases htarget draft hdraft with h | h
  · rw [h] at ht
    cases ht
  · rw [h] at ht
    cases ht
    rfl

/-- Drafts with legible targets bring in legible definitions. -/
theorem exists_legible_of_registerAll {r r' : Registry StageAction}
    {ds : List (Definition StageAction)} (h : r.Holds ds) (hds : ∀ d ∈ ds, d.Legible)
    {drafts : List (Draft StageAction)} (hdrafts : ∀ draft ∈ drafts, ∀ t ∈ draft.target, t.Legible)
    (hr : r.registerAll drafts = .ok r') : ∃ ds', r'.Holds ds' ∧ ∀ d ∈ ds', d.Legible := by
  obtain ⟨new, hnew, hholds⟩ := h.of_registerAll hr
  exact ⟨ds ++ new, hholds, List.forall_mem_append.2
    ⟨hds, forall_mem_of_forall₂ hnew (fun _ _ => Draft.Describes.legible) hdrafts⟩⟩

theorem exists_load_of_extend {ω : Type} {storage : Storage (StateM ω)}
    {r r' : Registry StageAction} {path : String} {world : ω}
    (h : (extend storage r path world).1 = .ok r') :
    ∃ catalog n, r.load handlers catalog = (.ok n, r') := by
  rw [extend, bind_apply] at h
  cases hread : (Catalog.readFile storage path world).1 with
  | error e =>
    rw [hread] at h
    cases h
  | ok catalog =>
    rcases hload : r.load handlers catalog with ⟨loaded, r''⟩
    rw [hread] at h
    simp only [hload] at h
    cases loaded with
    | error refused => cases h
    | ok n =>
      cases h
      exact ⟨catalog, n, hload⟩

/-- A catalog brings in legible definitions. -/
theorem exists_legible_of_extend {ω : Type} {storage : Storage (StateM ω)}
    {r r' : Registry StageAction} {path : String} {world : ω} {ds : List (Definition StageAction)}
    (h : r.Holds ds) (hds : ∀ d ∈ ds, d.Legible)
    (hr : (extend storage r path world).1 = .ok r') :
    ∃ ds', r'.Holds ds' ∧ ∀ d ∈ ds', d.Legible := by
  obtain ⟨catalog, n, hload⟩ := exists_load_of_extend hr
  obtain ⟨-, drafts, hdrafts, hall⟩ := Registry.loadFrom_eq_ok_iff.1 hload
  exact exists_legible_of_registerAll h hds (forall_mem_of_forall₂ (P := fun _ => True) hdrafts
    (fun _ _ h _ => Declaration.legible_of_draft h) fun _ _ => trivial) hall

/-- A session starts with the basic vocabulary and what a catalog adds to it. Nothing is bound, and
    nothing is on the stage. -/
theorem start_cases {ω : Type} {storage : Storage (StateM ω)} {settings : Settings} {world : ω}
    {s : Session} (h : (start storage settings world).1 = .ok s) :
    ∃ basic, (Registry.empty : Registry StageAction).registerAll Vocabulary.drafts = .ok basic
      ∧ (s = ⟨basic, settings, .empty, .empty⟩
        ∨ ∃ path r, (extend storage basic path world).1 = .ok r
          ∧ s = ⟨r, settings, .empty, .empty⟩) := by
  -- Unfolded as a function: with its arguments, checking the step would compute the vocabulary.
  obtain ⟨run, hrun⟩ : ∃ run, run = @start (StateM ω) _ := ⟨_, rfl⟩
  rw [← hrun] at h
  unfold start at hrun
  rw [hrun] at h
  cases hbasic : (Registry.empty : Registry StageAction).registerAll Vocabulary.drafts with
  | error e =>
    rw [hbasic] at h
    cases h
  | ok basic =>
    refine ⟨basic, rfl, ?_⟩
    rw [hbasic] at h
    cases hcatalog : settings.catalog with
    | none =>
      simp only [hcatalog] at h
      cases h
      exact .inl rfl
    | some path =>
      simp only [hcatalog] at h
      rw [bind_apply] at h
      obtain ⟨r, hr, rfl⟩ := map_eq_ok_iff.1 h
      exact .inr ⟨path, r, hr, rfl⟩

theorem exists_legible_of_start {ω : Type} {storage : Storage (StateM ω)} {settings : Settings}
    {world : ω} {s : Session} (h : (start storage settings world).1 = .ok s) :
    ∃ ds, s.Legible ds := by
  have hbegin : ∀ (r : Registry StageAction) ds, r.Holds ds → (∀ d ∈ ds, d.Legible) →
      (Session.mk r settings .empty .empty).Legible ds := fun r ds hr hds =>
    ⟨hr, hds, EventLoop.lawful_empty ds, List.forall_mem_nil _⟩
  obtain ⟨basic, hbasic, hcases⟩ := start_cases h
  obtain ⟨ds, hholds, hds⟩ := exists_legible_of_registerAll Registry.holds_empty
    (List.forall_mem_nil _) legible_of_mem_drafts hbasic
  rcases hcases with rfl | ⟨path, r, hr, rfl⟩
  · exact ⟨ds, hbegin basic ds hholds hds⟩
  · obtain ⟨ds', hholds', hds'⟩ := exists_legible_of_extend hholds hds hr
    exact ⟨ds', hbegin r ds' hholds' hds'⟩

/-! ## What every act keeps -/

namespace Legible

variable {ds : List (Definition StageAction)} {s : Session}

/-- Bindings that are legible and well-formed may come in. -/
theorem subscribeAll (h : s.Legible ds) {bs : List (Binding StageAction)}
    (hbs : ∀ b ∈ bs, b.body.WellFormed ds ∧ b.Legible)
    {w : World (EventLoop StageAction) Stage} (hw : w.host = s.loop.subscribeAll bs) :
    (s.inWorld w).Legible ds where
  registry := h.registry
  definitions := h.definitions
  lawful := by
    intro b hb
    rw [inWorld, hw] at hb
    exact (EventLoop.mem_values_subscribeAll hb).elim (fun hb => (hbs b hb).1) (h.lawful b)
  bindings := by
    intro b hb
    rw [inWorld, hw] at hb
    exact (EventLoop.mem_values_subscribeAll hb).elim (fun hb => (hbs b hb).2) (h.bindings b)

theorem runCommand (h : s.Legible ds) (command : String) :
    (s.runCommand command).2.Legible ds := by
  unfold Session.runCommand
  split
  · exact h
  · next compiled hcompile =>
    have hc : (s.registry.compile (s.tokens command)).result = .ok compiled :=
      compile_eq_ok_iff.1 hcompile
    have hwf := h.registry.wellFormed_of_compile hc
    have hlegible := h.registry.legible_of_compile h.definitions (fun t ht =>
      ((Script.settled_tokensOf command.toList).isWord_or_isQuotation t ht).2) hc
    refine h.subscribeAll (fun b hb => ?_)
      (EventLoop.host_executeChain StageAction.perform hwf s.world)
    rw [Option.mem_toList] at hb
    exact ⟨hwf.of_request? hb, Chain.legible_of_request? hlegible hb⟩

theorem report (h : s.Legible ds) (command : String) : (s.report command).2.Legible ds := by
  have hrun := h.runCommand command
  unfold Session.report
  split <;> simpa [*] using hrun

theorem runAll (h : s.Legible ds) (commands : List String) :
    (s.runAll commands).2.Legible ds := by
  induction commands generalizing s with
  | nil => exact h
  | cons command rest ih => exact ih (h.report command)

theorem fire (h : s.Legible ds) (target : Target) (signal : String) :
    (s.fire target signal).2.Legible ds := by
  obtain ⟨started, hcourse⟩ := (Engine.of StageAction.perform EventLoop.host).exists_course
    s.loop target signal s.world
  have hstarted : ∀ b ∈ started, b ∈ s.loop.bindings.values := fun b hb =>
    List.mem_of_mem_filter (hcourse.subset hb)
  refine h.subscribeAll (fun b hb => ?_)
    (EventLoop.host_course hcourse fun b hb => h.lawful b (hstarted b hb))
  obtain ⟨b', hb', hrequest⟩ := List.mem_filterMap.1 hb
  exact ⟨(h.lawful b' (hstarted b' hb')).of_request? hrequest,
    Chain.legible_of_request? (h.bindings b' (hstarted b' hb')).body hrequest⟩

/-- One act keeps a session legible. -/
theorem act (h : s.Legible ds) (a : Act) : (s.act a).Legible ds := by
  cases a with
  | script text => exact h.runAll _
  | fire target signal => exact h.fire target signal

theorem actAll (h : s.Legible ds) (acts : List Act) : (s.actAll acts).Legible ds := by
  induction acts generalizing s with
  | nil => exact h
  | cons a acts ih => exact ih (h.act a)

end Legible

/-- Whether an event is bound after some acts can be computed. -/
theorem exists_bound {ω : Type} (storage : Storage (StateM ω)) (settings : Settings) (world : ω)
    (acts : List Act) (target : Target) (signal : String)
    (h : (start storage settings world).1.toOption.any (fun s =>
      (s.actAll acts).loop.bindings.values.any fun b =>
        b.target = target ∧ b.signal = signal) = true) :
    ∃ s, (start storage settings world).1 = .ok s
      ∧ ∃ b ∈ (s.actAll acts).loop.bindings.values, b.target = target ∧ b.signal = signal := by
  obtain ⟨s, hs, hany⟩ := any_toOption_iff.1 h
  obtain ⟨b, hb, hbound⟩ := List.any_eq_true.1 hany
  exact ⟨s, hs, b, hb, of_decide_eq_true hbound⟩

/-- **Bound events can be fired by their names.** Take a session with any settings and any catalog
    that loads, on any storage, and whatever scripts were run and signals fired in it. For each
    binding of its event loop, the target and the signal with a colon between them are read back as
    exactly these if the signal has no colon, and never if it has one. -/
theorem fireArgument_iff {ω : Type} (storage : Storage (StateM ω)) (settings : Settings)
    (world : ω) (s : Session) (hstart : (start storage settings world).1 = .ok s)
    (acts : List Act) :
    ∀ b ∈ (s.actAll acts).loop.bindings.values,
      fireArgument (b.target.text ++ ":" ++ b.signal) = .ok (b.target, b.signal)
        ↔ ':' ∉ b.signal.toList := by
  obtain ⟨ds, hlegible⟩ := exists_legible_of_start hstart
  intro b hb
  exact CommandLine.fireArgument_eq_ok_iff ((hlegible.actAll acts).bindings b hb)

/-- A click on the banner that is bound when the document loads. -/
theorem fireArgument_iff_banner_click :
    let acts := [.script "On load, click the banner to create a circle.",
      .fire (.host "document") "load"]
    ∃ s, (start Disk.storage {} Disk.empty).1 = .ok s
      ∧ ∃ b ∈ (s.actAll acts).loop.bindings.values, b.target = .element "banner"
        ∧ b.signal = "click" ∧ ':' ∉ b.signal.toList
        ∧ fireArgument "element:banner:click" = .ok (.element "banner", "click") := by
  intro acts
  obtain ⟨s, hstart, b, hb, htarget, hsignal⟩ := exists_bound Disk.storage {} Disk.empty
    acts (.element "banner") "click" (by decide +kernel)
  have hcolon : ':' ∉ b.signal.toList := by
    rw [hsignal]
    decide
  have hread := (fireArgument_iff Disk.storage {} Disk.empty s hstart acts b hb).2 hcolon
  rw [htarget, hsignal] at hread
  exact ⟨s, hstart, b, hb, htarget, hsignal, hcolon, hread⟩

/-- The name of an event `a:b` of the document is taken for that of an event `b` of something
    called `document:a`. -/
theorem name_with_colon_misread :
    let catalog : Catalog :=
      ⟨[{ kind := some "EVENT", words := ["a:b"], target := some "document" }]⟩
    let disk := Disk.empty.set ["c.json"] (.file (some catalog.toJson.compact))
    ∃ s, (start Disk.storage { catalog := some "c.json" } disk).1 = .ok s
      ∧ ∃ b ∈ (s.actAll [.script "a:b create a circle."]).loop.bindings.values,
        b.target = .host "document" ∧ b.signal = "a:b"
          ∧ fireArgument (b.target.text ++ ":" ++ b.signal) = .ok (.host "document:a", "b")
          ∧ fireArgument (b.target.text ++ ":" ++ b.signal) ≠ .ok (b.target, b.signal) := by
  intro catalog disk
  obtain ⟨s, hstart, b, hb, htarget, hsignal⟩ := exists_bound Disk.storage
    { catalog := some "c.json" } disk [.script "a:b create a circle."] (.host "document") "a:b"
    (by decide +kernel)
  have hread : fireArgument (b.target.text ++ ":" ++ b.signal) = .ok (.host "document:a", "b") := by
    rw [htarget, hsignal]
    rfl
  refine ⟨s, hstart, b, hb, htarget, hsignal, hread, ?_⟩
  rw [hread, htarget, hsignal]
  simp

end Session

end CueScript
